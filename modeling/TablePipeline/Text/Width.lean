import TablePipeline.Text.Follower

/-! # Widths of lines

The width of a line is summed up from its end, since a character may join those that follow it. A
selector asks for the picture or for the letter form of the character before it, which changes the
columns of that character. A line in which nothing joins takes what its characters take.
-/

namespace TablePipeline.Text

/-- What follows a place in a line: a follower, and selectors before it. -/
structure Following where
  follower : Follower := .plain
  wantsPicture : Bool := false
  wantsLetter : Bool := false
deriving DecidableEq, Repr

namespace Following

/-- What follows a place before a selector that asks for a picture. -/
def askPicture (following : Following) : Following :=
  if following.follower.reachesAcrossSelector || following.follower.continuesPicture then
    { following with wantsPicture := true }
  else { wantsPicture := true }

/-- What follows a place before a selector that asks for a letter form. -/
def askLetter (following : Following) : Following :=
  if following.follower.reachesAcrossSelector then { following with wantsLetter := true }
  else { wantsLetter := true }

/-- What follows a place if it does not answer the demand for a picture. -/
def ignorePicture (following : Following) : Following :=
  if !following.wantsPicture then following
  else if following.follower.reachesAcrossSelector then { following with wantsPicture := false }
  else {}

/-- The follower of a place that does not answer the demand for a letter form. -/
def ignoreLetter (following : Following) : Follower :=
  if following.wantsLetter && !following.follower.reachesAcrossSelector then .plain
  else following.follower

/-- The columns that a character adds before what follows it, and what follows the place before
it. -/
def before (c : Char) (following : Following) : Int × Following :=
  if following.wantsPicture && selectable.has c then
    (if following.follower.continuesPicture then 0 else 2, { follower := .picture })
  else
    let following := following.ignorePicture
    if c = pictureSelector then (0, following.askPicture)
    else if c = letterSelector then (0, following.askLetter)
    else if following.wantsLetter && narrowsAsLetter c then (1, {})
    else
      let (added, follower) :=
        (following.ignoreLetter.before? c).getD (columns c, Follower.ofChar c)
      (added, { follower })

end Following

/-- The number of columns that a line takes. -/
def width (line : String) : Nat :=
  let (total, _) := line.toList.foldr (fun c (total, following) =>
    let (added, following) := following.before c
    (total + added, following)) ((0, {}) : Int × Following)
  total.toNat

end TablePipeline.Text
