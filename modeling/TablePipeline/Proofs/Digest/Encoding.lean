import Mathlib.Algebra.Group.Nat.Defs
import Mathlib.Data.List.Nodup
import TablePipeline.Fingerprint

/-! # What is hashed can be read back

Everything that a fingerprint covers stands behind its length, and lengths have eight bytes. So the
bytes that are hashed determine the domain and the fields, as long as they fit into a memory whose
sizes are 64-bit words.
-/

namespace TablePipeline

namespace Bytes

/-- Is a byte string one that a memory can hold? -/
def Fits (bytes : Bytes) : Prop :=
  bytes.length < 2 ^ 64

instance (bytes : Bytes) : Decidable bytes.Fits :=
  inferInstanceAs (Decidable (_ < _))

theorem Fits.left {front back : Bytes} (fits : Fits (front ++ back)) : Fits front := by
  rw [Fits, List.length_append] at fits
  exact Nat.lt_of_le_of_lt (Nat.le_add_right _ _) fits

theorem Fits.right {front back : Bytes} (fits : Fits (front ++ back)) : Fits back := by
  rw [Fits, List.length_append] at fits
  exact Nat.lt_of_le_of_lt (Nat.le_add_left _ _) fits

theorem length_littleEndian (count value : Nat) : (littleEndian count value).length = count := by
  induction count generalizing value with
  | zero => rfl
  | succ count ih => rw [littleEndian, List.length_cons, ih]

/-- The low bytes of a number are the number, up to what they have no room for. -/
theorem toNat_littleEndian (count value : Nat) :
    toNat (littleEndian count value) = value % 256 ^ count := by
  induction count generalizing value with
  | zero => simp [littleEndian, toNat, Nat.mod_one]
  | succ count ih =>
    have low : value.toUInt8.toNat = value % 256 := by simp
    rw [littleEndian, toNat, ih, low, Nat.pow_succ', Nat.mod_mul]

theorem length_word (value : Nat) : (word value).length = 8 :=
  length_littleEndian 8 value

/-- A number below `2 ^ 64` is read back from its word. -/
theorem toNat_word {value : Nat} (small : value < 2 ^ 64) : toNat (word value) = value := by
  rw [word, toNat_littleEndian]
  exact Nat.mod_eq_of_lt small

theorem word_injOn {value other : Nat} (small : value < 2 ^ 64) (small' : other < 2 ^ 64)
    (same : word value = word other) : value = other := by
  rw [← toNat_word small, same, toNat_word small']

private theorem toList_loop (bytes : ByteArray) (position : Nat) (read : List UInt8) :
    ByteArray.toList.loop bytes position read =
      read.reverse ++ bytes.data.toList.drop position := by
  unfold ByteArray.toList.loop
  split
  · rename_i inside
    have bound : position < bytes.data.toList.length := by simpa using inside
    have here : bytes.get! position = bytes.data.toList[position] := by
      rw [ByteArray.get!]
      simp_all
    rw [toList_loop, List.reverse_cons, here, List.append_assoc, List.singleton_append,
      List.getElem_cons_drop]
  · rename_i outside
    have bound : bytes.data.toList.length ≤ position := by simpa using outside
    rw [List.drop_eq_nil_of_le bound, List.append_nil]
termination_by bytes.size - position

/-- A text is determined by its encoding. -/
theorem ofText_injective : Function.Injective ofText := by
  intro text other same
  have read (bytes : ByteArray) : bytes.toList = bytes.data.toList := toList_loop bytes 0 []
  rw [ofText, ofText, read, read, Array.toList_inj, ← ByteArray.ext_iff] at same
  exact String.toByteArray_inj.mp same

/-- A byte string behind its length can be told from what follows it. -/
theorem counted_append_inj {bytes other rest rest' : Bytes} (fits : bytes.Fits)
    (fits' : other.Fits) (same : counted bytes ++ rest = counted other ++ rest') :
    bytes = other ∧ rest = rest' := by
  rw [counted, counted, List.append_assoc, List.append_assoc] at same
  obtain ⟨lengths, same⟩ := List.append_inj same (by rw [length_word, length_word])
  exact List.append_inj same (word_injOn fits fits' lengths)

end Bytes

/-- A field of which both parts fit into memory. -/
structure Field.Fits (field : Field) : Prop where
  tag : (Bytes.ofText field.tag).Fits
  value : field.value.Fits

theorem Field.fits_of_encode {field : Field} (fits : field.encode.Fits) : field.Fits :=
  ⟨fits.left.right, fits.right.right⟩

theorem Field.encode_append_inj {field other : Field} {rest rest' : Bytes} (fits : field.Fits)
    (fits' : other.Fits) (same : field.encode ++ rest = other.encode ++ rest') :
    field = other ∧ rest = rest' := by
  rw [encode, encode, List.append_assoc, List.append_assoc] at same
  obtain ⟨tags, same⟩ := Bytes.counted_append_inj fits.tag fits'.tag same
  obtain ⟨values, rests⟩ := Bytes.counted_append_inj fits.value fits'.value same
  cases field
  cases other
  cases Bytes.ofText_injective tags
  cases values
  exact ⟨rfl, rests⟩

theorem Field.encode_ne_nil (field : Field) : field.encode ≠ [] := by
  intro empty
  have length := congrArg List.length empty
  rw [encode, Bytes.counted, List.length_append, List.length_append, Bytes.length_word,
    List.length_nil] at length
  omega

namespace Fingerprint

/-- A domain and fields of which all parts fit into memory. -/
structure Fits (domain : String) (fields : List Field) : Prop where
  domain : (Bytes.ofText domain).Fits
  fields : ∀ field ∈ fields, field.Fits

theorem fits_of_encode {domain : String} {fields : List Field}
    (fits : (encode domain fields).Fits) : Fits domain fields := by
  refine ⟨fits.left.right, fun field member => Field.fits_of_encode ?_⟩
  obtain ⟨front, back, rfl⟩ := List.append_of_mem member
  have rest := fits.right
  rw [List.flatMap_append, List.flatMap_cons] at rest
  exact rest.right.left

theorem flatMap_encode_inj {fields others : List Field} (fits : ∀ field ∈ fields, field.Fits)
    (fits' : ∀ field ∈ others, field.Fits)
    (same : fields.flatMap Field.encode = others.flatMap Field.encode) : fields = others := by
  induction fields generalizing others with
  | nil =>
    cases others with
    | nil => rfl
    | cons other others =>
      have empty := (List.append_eq_nil_iff.mp same.symm).1
      exact absurd empty other.encode_ne_nil
  | cons field fields ih =>
    cases others with
    | nil =>
      have empty := (List.append_eq_nil_iff.mp same).1
      exact absurd empty field.encode_ne_nil
    | cons other others =>
      rw [List.flatMap_cons, List.flatMap_cons] at same
      obtain ⟨first, rest⟩ := List.forall_mem_cons.mp fits
      obtain ⟨first', rest'⟩ := List.forall_mem_cons.mp fits'
      obtain ⟨rfl, rests⟩ := Field.encode_append_inj first first' same
      rw [ih rest rest' rests]

/-- The bytes that a fingerprint is the digest of determine the domain and the fields. -/
theorem encode_injOn {domain domain' : String} {fields fields' : List Field}
    (fits : Fits domain fields) (fits' : Fits domain' fields')
    (same : encode domain fields = encode domain' fields') :
    domain = domain' ∧ fields = fields' := by
  obtain ⟨domains, same⟩ := Bytes.counted_append_inj fits.domain fits'.domain same
  exact ⟨Bytes.ofText_injective domains, flatMap_encode_inj fits.fields fits'.fields same⟩

/-- One of two byte strings that are equal has to fit into memory. -/
theorem encode_inj {domain domain' : String} {fields fields' : List Field}
    (fits : (encode domain fields).Fits) (same : encode domain fields = encode domain' fields') :
    domain = domain' ∧ fields = fields' :=
  encode_injOn (fits_of_encode fits) (fits_of_encode (same ▸ fits)) same

/-- In different domains different bytes are hashed, whatever the fields are. -/
theorem encode_ne_of_domain {domain domain' : String} (fits : (Bytes.ofText domain).Fits)
    (fits' : (Bytes.ofText domain').Fits) (differ : domain ≠ domain')
    (fields fields' : List Field) : encode domain fields ≠ encode domain' fields' :=
  fun same => differ (Bytes.ofText_injective (Bytes.counted_append_inj fits fits' same).1)

end Fingerprint

/-- What the digest of an address covers determines the address. -/
theorem Address.fields_inj {stage stage' name name' : String}
    {fingerprint fingerprint' : Fingerprint}
    (same : fields stage name fingerprint = fields stage' name' fingerprint') :
    stage = stage' ∧ name = name' ∧ fingerprint = fingerprint' := by
  simp only [fields, Field.text, Field.digest, List.cons.injEq, Field.mk.injEq, true_and,
    and_true] at same
  obtain ⟨stages, names, digests⟩ := same
  obtain ⟨⟨bytes⟩⟩ := fingerprint
  obtain ⟨⟨bytes'⟩⟩ := fingerprint'
  cases digests
  exact ⟨Bytes.ofText_injective stages, Bytes.ofText_injective names, rfl⟩

/-- Digests that begin with different bytes are different. -/
theorem Digest.nodup_of_firsts {hashes : List Bytes} (firsts : List UInt8)
    (begins : List.Forall₂ (fun bytes first => (of bytes).bytes.head? = some first) hashes firsts)
    (distinct : firsts.Nodup) : (hashes.map of).Nodup := by
  have heads : (hashes.map of).map (·.bytes.head?) = firsts.map some := by
    clear distinct
    induction begins with
    | nil => rfl
    | cons first _ ih => rw [List.map_cons, List.map_cons, List.map_cons, first, ih]
  exact List.Nodup.of_map _ (heads ▸ distinct.map fun _ _ => Option.some.inj)

end TablePipeline
