import TablePipeline.Text.CharWidth
import TablePipeline.Text.Emoji

/-! # Characters that join

Some characters are drawn as one with those that follow them: letters of several scripts, the two
letters of a flag, a picture and its modifier, pictures with a joiner between them. A text is read
from its end. What follows a place is summed up as a follower, which says how the next character to
the left may join. `Follower.before?` gives the columns that such a character adds, which may be
fewer than none, and the new follower.
-/

namespace TablePipeline.Text

/-- The letters of flags that are joined to a picture. The letters pair up from the right. -/
inductive RegionCount where
  | first
  | even
  | odd
deriving DecidableEq, Repr

/-- What a character finds on its right. -/
inductive Follower where
  /-- Nothing that joins. -/
  | plain
  | picture
  | modifier
  /-- A letter of a flag, and whether another one follows it. -/
  | region (several : Bool)
  /-- A joiner with a picture after it. -/
  | joinedPicture
  /-- A key to be drawn, joined to a picture. -/
  | joinedKeycap
  | joinedRegions (count : RegionCount)
  /-- The end of the tags of a flag that is joined to a picture: letters, and digits before them. -/
  | joinedTags (letters digits : Nat)
  | alef
  /-- A Hebrew lamed, and whether a joiner comes before it; and so on for the other scripts. -/
  | lamed (joined : Bool)
  | buginese (joined : Bool)
  /-- A joined Buginese ya with its vowel. -/
  | bugineseVowel
  | tifinagh (joined : Bool)
  /-- A Tifinagh consonant with the mark that joins consonants before it. -/
  | tifinaghPair
  | lisuTone
  | orkhon (joined : Bool)
  /-- A Khmer letter that may be written below another one. -/
  | khmer
  | kiratE
  | kiratAi
deriving DecidableEq, Repr

/-- Is the character an Arabic alef of some kind? -/
def isAlef (c : Char) : Bool :=
  CharRanges.has #[(0x622, 0x623), (0x625, 0x625), (0x627, 0x627), (0x671, 0x673), (0x675, 0x675),
    (0x773, 0x774), (0x870, 0x882)] c

/-- Is the character an Arabic lam of some kind? -/
def isLam (c : Char) : Bool :=
  CharRanges.has #[(0x644, 0x644), (0x6b5, 0x6b8), (0x76a, 0x76a), (0x8a6, 0x8a6), (0x8c7, 0x8c7)] c

/-- Can the character be written below another Khmer letter? -/
def isKhmerLetter (c : Char) : Bool :=
  CharRanges.has #[(0x1780, 0x1782), (0x1784, 0x1787), (0x1789, 0x178c), (0x178e, 0x1793),
    (0x1795, 0x1798), (0x179b, 0x179d), (0x17a0, 0x17a0), (0x17a2, 0x17a2), (0x17a7, 0x17a7),
    (0x17ab, 0x17ac), (0x17af, 0x17af)] c

/-- Is the character a Tifinagh consonant? -/
def isTifinaghConsonant (c : Char) : Bool :=
  CharRanges.has #[(0x2d31, 0x2d65), (0x2d6f, 0x2d6f)] c

/-- Is the character a first tone letter of Lisu? -/
def isLisuFirstTone (c : Char) : Bool :=
  CharRanges.has #[(0xa4f8, 0xa4fb)] c

/-- Does the character leave the letters beside it free to join? Selectors of a form do, and the
joiner and some invisible marks. -/
def isTransparent (c : Char) : Bool :=
  CharRanges.has #[(0x34f, 0x34f), (0x17b4, 0x17b5), (0x180b, 0x180d), (0x180f, 0x180f),
    (0x200d, 0x200d), (0xfe00, 0xfe0f), (0xe0100, 0xe01ef)] c

namespace Follower

/-- The follower that a character is by itself. -/
def ofChar (c : Char) : Follower :=
  let code := c.toNat
  if code < 0x5dc then plain
  else if code = 0x5dc then lamed false
  else if isAlef c then alef
  else if isKhmerLetter c then khmer
  else if code = 0x1a10 then buginese false
  else if isTifinaghConsonant c then tifinagh false
  else if code = 0xa4fc ∨ code = 0xa4fd then lisuTone
  else if code = 0x10c03 then orkhon false
  else if code = 0x16d67 then kiratE
  else if code = 0x16d68 then kiratAi
  else if isRegionLetter c then region false
  else if isModifier c then modifier
  else if pictures.has c then picture
  else plain

/-- Does the follower go on to the left of transparent characters? -/
def reachesAcross : Follower → Bool
  | lamed _ | buginese _ | bugineseVowel | tifinagh _ | tifinaghPair | lisuTone | orkhon _
  | khmer =>
    true
  | _ => false

/-- Does the follower go on to the left of a selector? -/
def reachesAcrossSelector (follower : Follower) : Bool :=
  follower = alef || follower.reachesAcross

/-- Is the follower joined to a picture that may go on with one more picture? -/
def continuesPicture : Follower → Bool
  | joinedPicture | joinedKeycap => true
  | _ => false

/-- The follower after a joiner. -/
def afterJoiner : Follower → Follower
  | lamed _ => lamed true
  | buginese _ => buginese true
  | tifinagh _ => tifinagh true
  | orkhon _ => orkhon true
  | other => other

/-- The columns and the follower of a character that joins under a condition. -/
def joins (condition : Bool) (added : Int) (follower : Follower) : Option (Int × Follower) :=
  if condition then some (added, follower) else none

/-- How a letter joins the letters after it. -/
def letterBefore? (c : Char) : Follower → Option (Int × Follower)
  | alef => (joins (isLam c) 0 plain).or (joins (joinsAcross c) 0 alef)
  | lamed true => joins (c.toNat = 0x5d0) 0 plain
  | buginese true => joins (c.toNat = 0x1a17) 0 bugineseVowel
  | bugineseVowel => joins (c.toNat = 0x1a15) 0 plain
  | tifinagh joined =>
    (joins (c.toNat = 0x2d7f) 1 tifinaghPair).or (joins (joined && isTifinaghConsonant c) 0 plain)
  | tifinaghPair => joins (isTifinaghConsonant c) (-1) plain
  | lisuTone => joins (isLisuFirstTone c) 0 plain
  | orkhon true => joins (c.toNat = 0x10c32) 0 plain
  | khmer => joins (c.toNat = 0x17d2) (-1) plain
  | kiratE =>
    ((joins (c.toNat = 0x16d63 || c.toNat = 0x16d69) 0 plain).or
      (joins (c.toNat = 0x16d67) 0 kiratAi)).or (joins (c.toNat = 0x16d68) 1 kiratE)
  | kiratAi => joins (c.toNat = 0x16d63) 0 plain
  | _ => none

/-- How a picture, or a part of one, joins the picture after it. The tags of a region are three to
six letters, or three digits and up to four letters. -/
def pictureBefore? (c : Char) : Follower → Option (Int × Follower)
  | picture => joins (c = joiner) 0 joinedPicture
  | modifier => (joins (modifiable.has c) 0 picture).or (joins (c = joiner) 0 joinedPicture)
  | region several =>
    (joins (isRegionLetter c) 1 (region true)).or (joins (several && c = joiner) 0 joinedPicture)
  | joinedPicture =>
    (((joins (c = keycap) 0 joinedKeycap).or
      (joins (isRegionLetter c) 1 (joinedRegions .first))).or
      (joins (isModifier c) 0 modifier)).or
      ((joins (isTagEnd c) 0 (joinedTags 0 0)).or (joins (pictures.has c) 0 picture))
  | joinedRegions .first => joins (isRegionLetter c) (-1) (joinedRegions .even)
  | joinedRegions .even =>
    (joins (isRegionLetter c) 3 (joinedRegions .odd)).or (joins (c = joiner) 0 joinedPicture)
  | joinedRegions .odd =>
    (joins (isRegionLetter c) (-1) (joinedRegions .even)).or (joins (c = joiner) 0 joinedPicture)
  | joinedTags letters 0 =>
    ((joins (isTagLetter c && letters < 6) 0 (joinedTags (letters + 1) 0)).or
      (joins (isTagDigit c && letters ≤ 4) 0 (joinedTags letters 1))).or
      (joins (c = blackFlag && 3 ≤ letters) 0 picture)
  | joinedTags letters digits =>
    (joins (isTagDigit c && digits < 3) 0 (joinedTags letters (digits + 1))).or
      (joins (c = blackFlag && digits = 3) 0 picture)
  | _ => none

/-- The columns that a character adds before a follower that it joins, and the new follower. -/
def before? (c : Char) (follower : Follower) : Option (Int × Follower) :=
  if follower.reachesAcross && isTransparent c then
    some (0, if c = joiner then follower.afterJoiner else follower)
  else (follower.letterBefore? c).or (follower.pictureBefore? c)

end Follower

end TablePipeline.Text
