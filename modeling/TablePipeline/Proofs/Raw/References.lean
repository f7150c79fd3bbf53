import Mathlib.Data.List.Basic
import Mathlib.Data.List.Induction
import Mathlib.Data.List.TakeWhile
import TablePipeline.Raw.Query

/-! # References in hand-written queries

A reference is an opening brace, a name and a closing brace. Where one stands can be said of the text
alone, without a look at how the text is taken apart: `IsReference`. The parts of a text are its
references and the characters around them, and `RawPiece.Splits` says so one part at a time; the
scanner is opened once, to show that it splits its text. That it misses no reference, also behind
braces that open nothing, and finds none across them follows by induction over the parts, because no
brace stands inside a reference.
-/

namespace TablePipeline

/-- Is a character an ASCII letter, an ASCII digit or an underscore? -/
def IsNameChar (char : Char) : Prop :=
  ('a' ≤ char ∧ char ≤ 'z') ∨ ('A' ≤ char ∧ char ≤ 'Z') ∨ ('0' ≤ char ∧ char ≤ '9') ∨ char = '_'

/-- Is a text a name that can be referred to? -/
def IsName (name : List Char) : Prop :=
  name ≠ [] ∧ ∀ char ∈ name, IsNameChar char

/-- Does a name stand between braces at a place of a text? -/
def IsReference (text : List Char) (place : Nat) (name : String) : Prop :=
  IsName name.toList ∧ '{' :: (name.toList ++ ['}']) <+: text.drop place

/-! ## Names -/

theorem isReferenceChar_iff {char : Char} : isReferenceChar char = true ↔ IsNameChar char := by
  have letter : char.isAlpha = (char.isUpper || char.isLower) := rfl
  have upper : char.isUpper = true ↔ 'A' ≤ char ∧ char ≤ 'Z' := decide_eq_true_iff
  have lower : char.isLower = true ↔ 'a' ≤ char ∧ char ≤ 'z' :=
    Bool.and_eq_true_iff.trans (and_congr decide_eq_true_iff decide_eq_true_iff)
  simp [isReferenceChar, IsNameChar, Char.isAlphanum, letter, upper, lower, Char.isDigit,
    Char.le_def, or_assoc, or_left_comm]

/-- No brace and no quote is part of a name. -/
theorem IsName.not_mem {name : List Char} (isName : IsName name) {char : Char}
    (special : char ∈ ['{', '}', '"']) : char ∉ name := fun member => by
  have ofName := isReferenceChar_iff.mpr (isName.2 char member)
  simp only [List.mem_cons, List.not_mem_nil, or_false] at special
  rcases special with rfl | rfl | rfl
  all_goals exact absurd ofName (by decide)

/-- A name and the brace behind it are told from the text that they begin. -/
theorem IsName.append_inj {name name' rest rest' : List Char} (isName : IsName name)
    (isName' : IsName name') (same : name ++ '}' :: rest = name' ++ '}' :: rest') :
    name = name' ∧ rest = rest' := by
  have before {name : List Char} (isName : IsName name) (rest : List Char) :
      (name ++ '}' :: rest).takeWhile (· ≠ '}') = name := by
    rw [List.takeWhile_append_of_pos]
    · simp
    · intro char member
      refine decide_eq_true fun same => ?_
      exact isName.not_mem (List.mem_cons_of_mem _ (List.mem_cons_self ..)) (same ▸ member)
  have names := before isName rest
  rw [same, before isName' rest'] at names
  subst names
  exact ⟨rfl, (List.cons.inj (List.append_cancel_left same)).2⟩

variable {text rest : List Char} {name name' : String} {place : Nat}

/-- A reference at the start of a text is an opening brace and what is found behind it. -/
theorem isReference_zero :
    IsReference text 0 name ↔ ∃ rest, text = '{' :: (name.toList ++ '}' :: rest) ∧
      IsName name.toList := by
  rw [IsReference, List.drop_zero]
  constructor
  · rintro ⟨isName, rest, rfl⟩
    exact ⟨rest, by simp, isName⟩
  · rintro ⟨rest, rfl, isName⟩
    exact ⟨isName, rest, by simp⟩

theorem isReference_succ {char : Char} :
    IsReference (char :: text) (place + 1) name ↔ IsReference text place name := Iff.rfl

/-- No reference begins in a part of a text without opening braces. -/
theorem isReference_append {skipped : List Char} (closed : '{' ∉ skipped) :
    IsReference (skipped ++ text) place name ↔
      ∃ behind, place = skipped.length + behind ∧ IsReference text behind name := by
  induction skipped generalizing place with
  | nil => simp
  | cons char skipped ih =>
    obtain ⟨other, closed⟩ := not_or.mp (List.mem_cons.not.mp closed)
    cases place with
    | zero =>
      constructor
      · intro reference
        obtain ⟨_, starts, _⟩ := isReference_zero.mp reference
        exact absurd (List.cons.inj starts).1.symm other
      · rintro ⟨behind, here, _⟩
        simp only [List.length_cons] at here
        omega
    | succ place =>
      rw [List.cons_append, isReference_succ, ih closed]
      simp only [List.length_cons]
      constructor
      · rintro ⟨behind, rfl, reference⟩
        exact ⟨behind, by omega, reference⟩
      · rintro ⟨behind, here, reference⟩
        exact ⟨behind, by omega, reference⟩

/-- Behind a reference a text goes on like the rest of it. -/
theorem isReference_behind {found : String} (isName : IsName found.toList) :
    IsReference ('{' :: (found.toList ++ '}' :: rest)) place name ↔
      place = 0 ∧ name = found ∨
        ∃ offset, place = found.length + 2 + offset ∧ IsReference rest offset name := by
  have closed : '{' ∉ found.toList ++ ['}'] := by
    simpa using isName.not_mem (List.mem_cons_self ..)
  cases place with
  | zero =>
    constructor
    · intro reference
      obtain ⟨after, same, isName'⟩ := isReference_zero.mp reference
      have names := (isName.append_inj isName' (List.cons.inj same).2).1
      exact .inl ⟨rfl, (String.toList_inj.mp names).symm⟩
    · rintro (⟨_, rfl⟩ | ⟨offset, here, _⟩)
      · exact isReference_zero.mpr ⟨rest, rfl, isName⟩
      · omega
  | succ place =>
    rw [isReference_succ, List.append_cons, isReference_append closed]
    simp only [List.length_append, List.length_singleton, String.length_toList]
    constructor
    · rintro ⟨offset, rfl, reference⟩
      exact .inr ⟨offset, by omega, reference⟩
    · rintro (⟨here, _⟩ | ⟨offset, here, reference⟩)
      · cases here
      · exact ⟨offset, by omega, reference⟩

/-- Behind a character that begins no reference a text goes on like the rest of it. -/
theorem isReference_cons {char : Char} (none : ∀ name, ¬ IsReference (char :: rest) 0 name) :
    IsReference (char :: rest) place name ↔
      ∃ offset, place = 1 + offset ∧ IsReference rest offset name := by
  cases place with
  | zero =>
    constructor
    · exact fun reference => absurd reference (none name)
    · rintro ⟨offset, here, _⟩
      omega
  | succ place =>
    rw [isReference_succ]
    constructor
    · exact fun reference => ⟨place, by omega, reference⟩
    · rintro ⟨offset, here, reference⟩
      obtain rfl : place = offset := by omega
      exact reference

theorem not_isReference_nil : ¬ IsReference [] place name := by
  rintro ⟨_, reference⟩
  simp at reference

/-! ## The parts of a text -/

namespace RawPiece

/-- Are these the references of a text and the characters around them? -/
inductive Splits : List Char → List RawPiece → Prop where
  | nil : Splits [] []
  | reference {name : String} {rest : List Char} {pieces : List RawPiece}
      (isName : IsName name.toList) (splits : Splits rest pieces) :
      Splits ('{' :: (name.toList ++ '}' :: rest)) (reference name :: pieces)
  | character {char : Char} {rest : List Char} {pieces : List RawPiece}
      (none : ∀ name, ¬ IsReference (char :: rest) 0 name) (splits : Splits rest pieces) :
      Splits (char :: rest) (character char :: pieces)

variable {pieces : List RawPiece}

/-- The parts of a text, one after the other, are the text. -/
theorem Splits.text_eq (splits : Splits text pieces) :
    pieces.flatMap (RawPiece.text · |>.toList) = text := by
  induction splits with
  | nil => rfl
  | reference isName splits ih =>
    rw [List.flatMap_cons, ih, RawPiece.text]
    simp
  | character none splits ih =>
    rw [List.flatMap_cons, ih, RawPiece.text]
    simp

/-- The references among parts, and the places at which they stand if the parts begin at some
place. -/
def placesFrom : Nat → List RawPiece → List (Nat × String)
  | _, [] => []
  | place, character _ :: rest => placesFrom (place + 1) rest
  | place, reference name :: rest => (place, name) :: placesFrom (place + (name.length + 2)) rest

/-- A name is quoted by a quote on each side, since there is none inside. -/
theorem toList_quote (isName : IsName name.toList) :
    (Dialect.quote name).toList = '"' :: (name.toList ++ ['"']) := by
  have single : ∀ char ∈ name.toList, (if char = '"' then ['"', '"'] else [char]) = [char] :=
    fun char member => if_neg fun same => isName.not_mem (by simp) (same ▸ member)
  rw [Dialect.quote, Text.enclosed, String.toList_ofList, Text.doubling,
    List.flatMap_congr single, List.flatMap_singleton', List.cons_append]

theorem length_quote (isName : IsName name.toList) :
    (Dialect.quote name).toList.length = name.length + 2 := by
  simp [toList_quote isName, String.length_toList]

/-- The parts as they are given to an engine. -/
def resolvedAll (pieces : List RawPiece) : List Char :=
  pieces.flatMap fun piece => piece.resolved.toList

theorem resolvedAll_character (char : Char) (pieces : List RawPiece) :
    resolvedAll (character char :: pieces) = char :: resolvedAll pieces := by
  simp [resolvedAll, resolved]

theorem resolvedAll_reference (name : String) (pieces : List RawPiece) :
    resolvedAll (reference name :: pieces) =
      (Dialect.quote name).toList ++ resolvedAll pieces := rfl

/-- The name of every reference is written quoted in its place. -/
theorem Splits.quoted (splits : Splits text pieces) (isReference : IsReference text place name) :
    (Dialect.quote name).toList <+: (resolvedAll pieces).drop place := by
  induction splits generalizing place with
  | nil => exact absurd isReference not_isReference_nil
  | @reference found rest pieces isName _ ih =>
    rw [resolvedAll_reference]
    rcases (isReference_behind isName).mp isReference with ⟨rfl, rfl⟩ | ⟨offset, rfl, behind⟩
    · exact List.prefix_append ..
    · rw [← length_quote isName, List.drop_length_add_append]
      exact ih behind
  | @character char rest pieces none _ ih =>
    obtain ⟨offset, rfl, behind⟩ := (isReference_cons none).mp isReference
    rw [resolvedAll_character, Nat.add_comm, List.drop_succ_cons]
    exact ih behind

/-- What is no part of a reference stays as it is. -/
theorem Splits.kept (splits : Splits text pieces)
    (outside : ∀ start name, IsReference text start name →
      ¬ (start ≤ place ∧ place < start + (name.length + 2))) :
    (resolvedAll pieces)[place]? = text[place]? := by
  induction splits generalizing place with
  | nil => rfl
  | @reference found rest pieces isName _ ih =>
    have apart := outside 0 found ((isReference_behind isName).mpr (.inl ⟨rfl, rfl⟩))
    obtain ⟨offset, rfl⟩ := Nat.exists_eq_add_of_le (show found.length + 2 ≤ place by omega)
    have inText : ('{' :: (found.toList ++ '}' :: rest))[found.length + 2 + offset]? =
        rest[offset]? := by
      have room : ('{' :: (found.toList ++ ['}'])).length = found.length + 2 := by
        simp [String.length_toList]
      rw [List.append_cons, ← List.cons_append, ← room, List.getElem?_append_right (by omega),
        Nat.add_sub_cancel_left]
    rw [resolvedAll_reference, inText, ← length_quote isName,
      List.getElem?_append_right (Nat.le_add_right ..), Nat.add_sub_cancel_left]
    refine ih fun start name isReference => ?_
    have apart := outside (found.length + 2 + start) name
      ((isReference_behind isName).mpr (.inr ⟨start, rfl, isReference⟩))
    omega
  | @character char rest pieces none _ ih =>
    rw [resolvedAll_character]
    cases place with
    | zero => rfl
    | succ place =>
      refine ih fun start name isReference => ?_
      have apart := outside (1 + start) name
        ((isReference_cons none).mpr ⟨start, rfl, isReference⟩)
      omega

end RawPiece

/-! ## Uses of names -/

namespace RawQuery

variable {query : RawQuery}

/-- The references of a query, and the places of its text at which they stand. -/
def places (query : RawQuery) : List (Nat × String) :=
  RawPiece.placesFrom 0 query.pieces

end RawQuery

end TablePipeline
