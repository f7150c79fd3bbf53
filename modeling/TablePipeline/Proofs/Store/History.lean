import Mathlib.Data.Set.Card
import TablePipeline.Proofs.Dictionary
import TablePipeline.Proofs.Run.Writes

/-! # What a store tells of its history

A store starts empty, and two calls change it: an artifact is put under a key, and what is held at an
address is dropped. What every reader gives afterwards can be told from the calls alone. The index
remembers all keys that were ever put; the artifact at an address is that of the last call that
touched the address, if this was a put. That the two are read together rests on one fact about the
entries: no address is held twice.

Nothing here asks that digests be different. Keys that share an address share what is held there,
and the last put among them decides.
-/

namespace TablePipeline

/-- A call that changes a store. -/
inductive StoreCall where
  | put (key : OutputKey) (artifact : Artifact)
  | evict (address : Address)

namespace StoreCall

/-- The store after a call. -/
def make (store : Store) : StoreCall → Store
  | put key artifact => (store.put key artifact).1
  | evict address => (store.evict address).1

/-- The address that a call touches. -/
def place : StoreCall → Address
  | put key _ => key.address
  | evict address => address

/-- What a call leaves at the address that it touches. -/
def left? : StoreCall → Option StoredArtifact
  | put key artifact => some (Store.stored key artifact)
  | evict _ => none

/-- Does a call put an artifact? -/
def isPut : StoreCall → Bool
  | put _ _ => true
  | evict _ => false

theorem left?_eq_some {call : StoreCall} {entry : StoredArtifact} :
    call.left? = some entry ↔
      ∃ key artifact, call = put key artifact ∧ entry = Store.stored key artifact := by
  cases call <;> simp [left?, eq_comm]

/-- A call changes what is held at the address that it touches, and nowhere else. -/
theorem payloads_make (store : Store) (call : StoreCall) (address : Address) :
    (call.make store).payloads.find? address =
      if address = call.place then call.left? else store.payloads.find? address := by
  cases call with
  | put key artifact => exact Store.payloads_put ..
  | evict other => exact Dictionary.find?_erase ..

end StoreCall

/-- Is an artifact put, and its address not touched by a later call? -/
def LastPut (calls : List StoreCall) (key : OutputKey) (artifact : Artifact) : Prop :=
  ∃ before later, calls = before ++ .put key artifact :: later ∧
    ∀ call ∈ later, call.place ≠ key.address

/-- A put is the last one at its address after one more call if it is this call, or if it was the
last one before and the call touches another address. -/
theorem lastPut_concat {calls : List StoreCall} {call : StoreCall} {key : OutputKey}
    {artifact : Artifact} :
    LastPut (calls ++ [call]) key artifact ↔
      call = .put key artifact ∨ LastPut calls key artifact ∧ call.place ≠ key.address := by
  constructor
  · rintro ⟨before, later, split, untouched⟩
    rcases List.eq_nil_or_concat later with rfl | ⟨others, last, rfl⟩
    · exact .inl (List.cons.inj (List.append_inj' split rfl).2).1
    · rw [List.concat_eq_append, ← List.cons_append, ← List.append_assoc] at split
      obtain ⟨rfl, same⟩ := List.append_inj' split rfl
      cases same
      rw [List.concat_eq_append, List.forall_mem_append, List.forall_mem_singleton] at untouched
      exact .inr ⟨⟨before, others, rfl, untouched.1⟩, untouched.2⟩
  · rintro (rfl | ⟨⟨before, later, rfl, untouched⟩, elsewhere⟩)
    · exact ⟨calls, [], rfl, fun _ member => nomatch member⟩
    · refine ⟨before, later ++ [call], List.append_assoc .., ?_⟩
      rw [List.forall_mem_append, List.forall_mem_singleton]
      exact ⟨untouched, elsewhere⟩

namespace Store

/-- The store after some calls on a new one. -/
def after (calls : List StoreCall) : Store :=
  calls.foldl StoreCall.make .empty

theorem after_concat (calls : List StoreCall) (call : StoreCall) :
    after (calls ++ [call]) = call.make (after calls) :=
  List.foldl_concat ..

/-! ## What is recorded -/

/-- A key is recorded with its address once some call has put it. No call takes it out again. -/
theorem index_after {calls : List StoreCall} {key : OutputKey} {address : Address} :
    (after calls).index.find? key = some address ↔
      (∃ artifact, .put key artifact ∈ calls) ∧ address = key.address := by
  induction calls using List.reverseRec with
  | nil => simp [after, empty]
  | append_singleton calls call ih =>
    rw [after_concat]
    cases call with
    | put other artifact =>
      rw [StoreCall.make, index_put]
      by_cases same : key = other
      · subst same
        simp [eq_comm]
      · simp [same, ih]
    | evict other => simpa [StoreCall.make, evict] using ih

theorem index_after_eq_none {calls : List StoreCall} {key : OutputKey} :
    (after calls).index.find? key = none ↔ ∀ artifact, .put key artifact ∉ calls := by
  rw [Option.eq_none_iff_forall_ne_some]
  simp only [ne_eq, index_after, not_and]
  constructor
  · intro none artifact member
    exact none key.address ⟨artifact, member⟩ rfl
  · rintro none address ⟨artifact, member⟩
    exact absurd member (none artifact)

/-! ## What is held -/

/-- An address holds what the last call that touched it has put there. -/
theorem payloads_after {calls : List StoreCall} {address : Address} {entry : StoredArtifact} :
    (after calls).payloads.find? address = some entry ↔
      ∃ key artifact, LastPut calls key artifact ∧ key.address = address ∧
        entry = stored key artifact := by
  induction calls using List.reverseRec with
  | nil => simp [after, empty, LastPut]
  | append_singleton calls call ih =>
    rw [after_concat, StoreCall.payloads_make]
    simp only [lastPut_concat]
    split
    · rename_i here
      rw [StoreCall.left?_eq_some]
      constructor
      · rintro ⟨key, artifact, rfl, rfl⟩
        exact ⟨key, artifact, .inl rfl, here.symm, rfl⟩
      · rintro ⟨key, artifact, rfl | ⟨_, elsewhere⟩, rfl, rfl⟩
        · exact ⟨key, artifact, rfl, rfl⟩
        · exact absurd here.symm elsewhere
    · rename_i elsewhere
      rw [ih]
      constructor
      · rintro ⟨key, artifact, last, rfl, rfl⟩
        exact ⟨key, artifact, .inr ⟨last, Ne.symm elsewhere⟩, rfl, rfl⟩
      · rintro ⟨key, artifact, rfl | ⟨last, _⟩, rfl, rfl⟩
        · exact absurd rfl elsewhere
        · exact ⟨key, artifact, last, rfl, rfl⟩

theorem payloads_after_eq_none {calls : List StoreCall} {address : Address} :
    (after calls).payloads.find? address = none ↔
      ∀ key artifact, LastPut calls key artifact → key.address ≠ address := by
  rw [Option.eq_none_iff_forall_ne_some]
  simp only [ne_eq, payloads_after, not_exists, not_and]
  constructor
  · intro none key artifact last here
    exact none _ key artifact last here rfl
  · intro none entry key artifact last here
    exact absurd here (none key artifact last)

/-- No address is held twice. -/
theorem nodup_payloads_after (calls : List StoreCall) : (after calls).payloads.keys.Nodup := by
  induction calls using List.reverseRec with
  | nil => exact .nil
  | append_singleton calls call ih =>
    rw [after_concat]
    cases call with
    | put key artifact => exact Dictionary.nodup_keys_insert ih ..
    | evict address => exact Dictionary.nodup_keys_erase ih _

theorem writes_after (calls : List StoreCall) :
    (after calls).writes = calls.countP StoreCall.isPut := by
  induction calls using List.reverseRec with
  | nil => rfl
  | append_singleton calls call ih =>
    rw [after_concat, List.countP_append, ← ih]
    cases call <;> rfl

/-! ## What readers give -/

variable {store : Store}

theorem get_eq_ok {address : Address} {entry : StoredArtifact} :
    store.get address = .ok entry ↔ store.payloads.find? address = some entry := by
  rw [get]
  cases store.payloads.find? address <;> simp

theorem get_eq_error {address : Address} {error : StoreError} :
    store.get address = .error error ↔
      store.payloads.find? address = none ∧ error = .missing address := by
  rw [get]
  cases store.payloads.find? address <;> simp [eq_comm]

theorem lookup_eq_ok {key : OutputKey} {address : Address} :
    store.lookup key = .ok address ↔ store.index.find? key = some address := by
  rw [lookup]
  cases store.index.find? key <;> simp

theorem lookup_eq_error {key : OutputKey} {error : StoreError} :
    store.lookup key = .error error ↔
      store.index.find? key = none ∧ error = .notFound key.stage key.name key.fingerprint := by
  rw [lookup]
  cases store.index.find? key <;> simp [eq_comm]

/-- Can an artifact be read at an address? -/
def Readable (store : Store) (address : Address) : Prop :=
  ∃ entry, store.get address = .ok entry

theorem mem_keys_payloads {address : Address} :
    address ∈ store.payloads.keys ↔ store.Readable address := by
  rw [Dictionary.mem_keys, Readable]
  simp only [get_eq_ok]

/-- What every reader of a store gives, told from the calls that were made. -/
structure Recounts (store : Store) (calls : List StoreCall) : Prop where
  /-- A key is found where some call has put it, at its own address. -/
  found : ∀ {key : OutputKey} {address : Address}, store.lookup key = .ok address ↔
    (∃ artifact, .put key artifact ∈ calls) ∧ address = key.address
  /-- It is not found where no call has put it. -/
  notFound : ∀ {key : OutputKey} {error : StoreError}, store.lookup key = .error error ↔
    (∀ artifact, .put key artifact ∉ calls) ∧
      error = .notFound key.stage key.name key.fingerprint
  /-- What is read at an address is what the last put there has written, unless it was dropped. -/
  held : ∀ {address : Address} {entry : StoredArtifact}, store.get address = .ok entry ↔
    ∃ key artifact, LastPut calls key artifact ∧ key.address = address ∧
      entry = ⟨address, key.fingerprint, artifact.kind, artifact.content, artifact⟩
  /-- Anywhere else an artifact is missing. -/
  missing : ∀ {address : Address} {error : StoreError}, store.get address = .error error ↔
    (∀ key artifact, LastPut calls key artifact → key.address ≠ address) ∧
      error = .missing address
  /-- Dropping tells whether there was something to read. -/
  evicts : ∀ address, (store.evict address).2 = true ↔ store.Readable address
  size : {address | store.Readable address}.encard = store.size
  /-- The addresses of a stage and a name are those that can be read, each once. -/
  addresses : ∀ stage name, (store.addresses stage name).Nodup ∧ ∀ address,
    address ∈ store.addresses stage name ↔
      address.stage = stage ∧ address.name = name ∧ store.Readable address
  writes : store.writes = calls.countP StoreCall.isPut

/-- There are as many readable addresses as entries if no address is held twice. -/
theorem encard_readable (distinct : store.payloads.keys.Nodup) :
    {address | store.Readable address}.encard = store.size := by
  have keys : {address | store.Readable address} = (store.payloads.keys.toFinset : Set Address) := by
    ext address
    simp [mem_keys_payloads]
  rw [keys, Set.encard_coe_eq_coe_finsetCard, List.toFinset_card_of_nodup distinct,
    Dictionary.keys, List.length_map]
  rfl

/-- A store tells all calls that were made on it. -/
theorem recounts_after (calls : List StoreCall) : (after calls).Recounts calls where
  found := lookup_eq_ok.trans index_after
  notFound := by
    intro key error
    rw [lookup_eq_error, index_after_eq_none]
  held := by
    intro address entry
    rw [get_eq_ok, payloads_after]
    constructor
    · rintro ⟨key, artifact, last, rfl, rfl⟩
      exact ⟨key, artifact, last, rfl, rfl⟩
    · rintro ⟨key, artifact, last, rfl, rfl⟩
      exact ⟨key, artifact, last, rfl, rfl⟩
  missing := by
    intro address error
    rw [get_eq_error, payloads_after_eq_none]
  evicts address := by
    rw [evict, ← Dictionary.find?_isSome, Option.isSome_iff_exists, Readable]
    simp only [get_eq_ok]
  size := encard_readable (nodup_payloads_after calls)
  addresses stage name := by
    refine ⟨?_, fun address => ?_⟩
    · exact (List.mergeSort_perm _ _).nodup_iff.mpr ((nodup_payloads_after calls).filter _)
    · rw [Store.addresses, (List.mergeSort_perm _ _).mem_iff, List.mem_filter, mem_keys_payloads,
        decide_eq_true_iff]
      tauto
  writes := writes_after calls

end Store

end TablePipeline
