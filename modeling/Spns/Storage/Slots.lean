import Mathlib.Logic.Function.Basic
import Spns.Storage.Tables

/-!
# Row slots

Every write of the server is about one row id: the row itself or its
namespaces.  The slot of an id is the part of the tables that belongs to it,
and a write changes no other slot.  The constraints of the schema and the
stored subscriptions are read off the slots, so a transaction can be followed
through the one or the few slots that it writes.
-/

namespace Spns.Storage

open Spns
open Spns.Hive

/-- The row id that a write is about. -/
def Write.slot : Write → Nat
  | .insertRow row => row.id
  | .updateRow id _ => id
  | .deleteRow id => id
  | .insertNamespace id _ => id
  | .deleteNamespaces id => id

namespace Tables

/-- What the tables hold for one row id. -/
def slot (tables : Tables) (id : Nat) : Tables where
  subscriptions := tables.subscriptions.filter fun row => row.id = id
  subNamespaces := tables.subNamespaces.filter fun pair => pair.1 = id

/-- A slot without a row. -/
def emptySlot : Tables :=
  ⟨[], []⟩

theorem mem_slot {tables : Tables} {id : Nat} {row : Row} :
    row ∈ (tables.slot id).subscriptions ↔ row ∈ tables.subscriptions ∧ row.id = id := by
  simp [slot]

theorem mem_iff_mem_slot {tables : Tables} {row : Row} :
    row ∈ tables.subscriptions ↔ row ∈ (tables.slot row.id).subscriptions := by
  simp [mem_slot]

theorem namespacesOf_slot (tables : Tables) (id : Nat) :
    (tables.slot id).namespacesOf id = tables.namespacesOf id := by
  simp [namespacesOf, slot, List.filter_filter]

/-- An update does not change which rows have an id. -/
theorem filter_id_map_update (rows : List Row) (id target : Nat) (data : RowData) :
    (rows.map fun row => if row.id = target then { row with data := data } else row).filter
        (fun row => row.id = id) =
      (rows.filter fun row => row.id = id).map fun row =>
        if row.id = target then { row with data := data } else row := by
  rw [List.filter_map]
  congr 1
  apply List.filter_congr
  intro row _
  simp only [Function.comp]
  split <;> rfl

theorem slot_apply_self (tables : Tables) (write : Write) :
    (tables.apply write).slot write.slot = (tables.slot write.slot).apply write := by
  cases write with
  | insertRow row => simp [apply, slot, Write.slot]
  | updateRow id data =>
      exact congrArg (Tables.mk · _) (filter_id_map_update tables.subscriptions id id data)
  | deleteRow id => simp [apply, slot, Write.slot, List.filter_filter, Bool.and_comm]
  | insertNamespace id ns => simp [apply, slot, Write.slot]
  | deleteNamespaces id => simp [apply, slot, Write.slot, List.filter_filter, Bool.and_comm]

/-- Dropping what belongs to one id does not touch what belongs to another. -/
theorem filter_ne_filter_eq {α : Type} (idOf : α → Nat) {id target : Nat} (other : target ≠ id)
    (items : List α) :
    (items.filter fun item => idOf item ≠ target).filter (fun item => idOf item = id) =
      items.filter fun item => idOf item = id := by
  rw [List.filter_filter]
  apply List.filter_congr
  intro item _
  by_cases here : idOf item = id
  · simp [here, Ne.symm other]
  · simp [here]

theorem slot_apply_of_ne {tables : Tables} {write : Write} {id : Nat} (other : write.slot ≠ id) :
    (tables.apply write).slot id = tables.slot id := by
  cases write with
  | insertRow row =>
      have away : row.id ≠ id := other
      simp [apply, slot, away]
  | updateRow target data =>
      have away : target ≠ id := other
      apply congrArg (Tables.mk · _)
      apply (filter_id_map_update tables.subscriptions id target data).trans
      conv => rhs; rw [← List.map_id (tables.subscriptions.filter fun row => row.id = id)]
      apply List.map_congr_left
      intro row member
      have here : row.id = id := by simpa using (List.mem_filter.mp member).2
      rw [if_neg (by rw [here]; exact Ne.symm away), id_eq]
  | deleteRow target =>
      exact congrArg₂ Tables.mk (filter_ne_filter_eq Row.id other tables.subscriptions)
        (filter_ne_filter_eq Prod.fst other tables.subNamespaces)
  | insertNamespace target ns =>
      have away : target ≠ id := other
      simp [apply, slot, away]
  | deleteNamespaces target =>
      exact congrArg (Tables.mk _) (filter_ne_filter_eq Prod.fst other tables.subNamespaces)

theorem slot_applyAll_of_forall_ne {tables : Tables} {writes : List Write} {id : Nat}
    (others : ∀ write ∈ writes, write.slot ≠ id) :
    (tables.applyAll writes).slot id = tables.slot id := by
  induction writes generalizing tables with
  | nil => rfl
  | cons write writes ih =>
      rw [applyAll_cons, ih fun later member => others later (List.mem_cons_of_mem write member),
        slot_apply_of_ne (others write List.mem_cons_self)]

theorem slot_applyAll_of_forall_eq {tables : Tables} {writes : List Write} {id : Nat}
    (same : ∀ write ∈ writes, write.slot = id) :
    (tables.applyAll writes).slot id = (tables.slot id).applyAll writes := by
  induction writes generalizing tables with
  | nil => rfl
  | cons write writes ih =>
      rw [applyAll_cons, applyAll_cons,
        ih fun later member => same later (List.mem_cons_of_mem write member)]
      cases same write List.mem_cons_self
      rw [slot_apply_self]

/-- The slots after deleting some rows. -/
theorem slot_applyAll_deletes (tables : Tables) (rows : List Row) (id : Nat) :
    (tables.applyAll (rows.map fun row => .deleteRow row.id)).slot id =
      if id ∈ rows.map Row.id then emptySlot else tables.slot id := by
  induction rows generalizing tables with
  | nil => rfl
  | cons row rows ih =>
      rw [List.map_cons, applyAll_cons, ih]
      by_cases here : row.id = id
      · subst here
        have cleared : (tables.apply (.deleteRow row.id)).slot row.id = emptySlot := by
          have own := slot_apply_self tables (.deleteRow row.id)
          rw [Write.slot] at own
          rw [own]
          simp [apply, slot, emptySlot]
        simp [cleared]
      · rw [slot_apply_of_ne (show (Write.deleteRow row.id).slot ≠ id from here)]
        simp [Ne.symm here]

/-- Writes keep the id and device of a row; a row with others was inserted. -/
theorem origin_of_mem_applyAll {tables : Tables} {writes : List Write} {after : Row}
    (member : after ∈ (tables.applyAll writes).subscriptions) :
    (∃ row ∈ tables.subscriptions, row.id = after.id ∧ row.device = after.device) ∨
      ∃ row, .insertRow row ∈ writes ∧ row.id = after.id ∧ row.device = after.device := by
  induction writes generalizing tables with
  | nil => exact Or.inl ⟨after, member, rfl, rfl⟩
  | cons write writes ih =>
      rcases ih member with ⟨row, present, same⟩ | ⟨row, inserted, same⟩
      · cases write with
        | insertRow new =>
            rcases List.mem_append.mp present with old | isNew
            · exact Or.inl ⟨row, old, same⟩
            · cases List.mem_singleton.mp isNew
              exact Or.inr ⟨row, List.mem_cons_self, same⟩
        | updateRow id data =>
            obtain ⟨old, wasThere, rfl⟩ := List.mem_map.mp present
            refine Or.inl ⟨old, wasThere, ?_⟩
            split at same <;> exact same
        | deleteRow id => exact Or.inl ⟨row, (List.mem_filter.mp present).1, same⟩
        | insertNamespace id ns => exact Or.inl ⟨row, present, same⟩
        | deleteNamespaces id => exact Or.inl ⟨row, present, same⟩
      · exact Or.inr ⟨row, List.mem_cons_of_mem write inserted, same⟩

/-! ## The constraints of the schema -/

/-- The primary key, the unique constraint and the foreign key. -/
structure Valid (tables : Tables) : Prop where
  primary : ∀ row ∈ tables.subscriptions, (tables.slot row.id).subscriptions = [row]
  unique : ∀ first ∈ tables.subscriptions, ∀ second ∈ tables.subscriptions,
    first.device = second.device → first.id = second.id
  foreign : ∀ id, (tables.slot id).subscriptions = [] → (tables.slot id).subNamespaces = []

theorem Valid.eq_of_id {tables : Tables} (valid : tables.Valid) {first second : Row}
    (member : first ∈ tables.subscriptions) (other : second ∈ tables.subscriptions)
    (same : first.id = second.id) : first = second := by
  have only := valid.primary second other
  have inside : first ∈ (tables.slot second.id).subscriptions := mem_slot.mpr ⟨member, same⟩
  rw [only] at inside
  exact List.mem_singleton.mp inside

theorem Valid.eq_of_device {tables : Tables} (valid : tables.Valid) {first second : Row}
    (member : first ∈ tables.subscriptions) (other : second ∈ tables.subscriptions)
    (same : first.device = second.device) : first = second :=
  valid.eq_of_id member other (valid.unique first member second other same)

theorem Valid.rowAt_eq_some_iff {tables : Tables} (valid : tables.Valid) {device : Device}
    {row : Row} :
    tables.rowAt device = some row ↔ row ∈ tables.subscriptions ∧ row.device = device := by
  constructor
  · intro found
    exact ⟨List.mem_of_find?_eq_some found, by simpa using List.find?_some found⟩
  · rintro ⟨member, here⟩
    cases found : tables.rowAt device with
    | none =>
        have absent := List.find?_eq_none.mp found row member
        simp [here] at absent
    | some other =>
        have otherHere : other.device = device := by simpa using List.find?_some found
        exact congrArg some (valid.eq_of_device (List.mem_of_find?_eq_some found) member
          (otherHere.trans here.symm))

theorem rowAt_eq_none_iff {tables : Tables} {device : Device} :
    tables.rowAt device = none ↔ ∀ row ∈ tables.subscriptions, row.device ≠ device := by
  simp [rowAt]

theorem Valid.contents_eq_some {tables : Tables} (valid : tables.Valid) {row : Row}
    (member : row ∈ tables.subscriptions) :
    tables.contents row.device = some ⟨row.data, tables.namespacesOf row.id⟩ := by
  rw [contents, valid.rowAt_eq_some_iff.mpr ⟨member, rfl⟩]
  rfl

theorem contents_eq_none_iff {tables : Tables} {device : Device} :
    tables.contents device = none ↔ ∀ row ∈ tables.subscriptions, row.device ≠ device := by
  rw [contents, Option.map_eq_none_iff, rowAt_eq_none_iff]

/-- Tables that agree on the slots of a device's row store the same for it. -/
theorem contents_congr {tables after : Tables} (valid : tables.Valid) (validAfter : after.Valid)
    {device : Device}
    (forward : ∀ row ∈ tables.subscriptions, row.device = device →
      after.slot row.id = tables.slot row.id)
    (backward : ∀ row ∈ after.subscriptions, row.device = device →
      after.slot row.id = tables.slot row.id) : after.contents device = tables.contents device := by
  cases stored : tables.contents device with
  | none =>
      rw [contents_eq_none_iff] at stored ⊢
      intro row member here
      have same := backward row member here
      rw [mem_iff_mem_slot, same, ← mem_iff_mem_slot] at member
      exact stored row member here
  | some value =>
      obtain ⟨row, found, rfl⟩ := Option.map_eq_some_iff.mp stored
      obtain ⟨member, rfl⟩ := valid.rowAt_eq_some_iff.mp found
      have same := forward row member rfl
      rw [mem_iff_mem_slot, ← same, ← mem_iff_mem_slot] at member
      rw [validAfter.contents_eq_some member, ← namespacesOf_slot, same, namespacesOf_slot]

/-- Putting a row into one slot stores it for its device, if that slot is the
device's own or the device has none. -/
theorem Valid.put {tables after : Tables} (valid : tables.Valid) {row : Row}
    (others : ∀ id, id ≠ row.id → after.slot id = tables.slot id)
    (own : (after.slot row.id).subscriptions = [row])
    (owner : ∀ old ∈ tables.subscriptions, old.id = row.id ↔ old.device = row.device) :
    after.Valid ∧ after.contents =
      Function.update tables.contents row.device (some ⟨row.data, after.namespacesOf row.id⟩) := by
  have member : row ∈ after.subscriptions := by
    rw [mem_iff_mem_slot, own]
    exact List.mem_singleton_self row
  have cases_of_mem : ∀ other ∈ after.subscriptions,
      other = row ∨ other ∈ tables.subscriptions ∧ other.id ≠ row.id := by
    intro other present
    rw [mem_iff_mem_slot] at present
    by_cases here : other.id = row.id
    · rw [here, own] at present
      exact Or.inl (List.mem_singleton.mp present)
    · rw [others other.id here] at present
      exact Or.inr ⟨(mem_slot.mp present).1, here⟩
  have validAfter : after.Valid := by
    constructor
    · intro other present
      rcases cases_of_mem other present with rfl | ⟨old, elsewhere⟩
      · exact own
      · rw [others other.id elsewhere]
        exact valid.primary other old
    · intro first firstMember second secondMember same
      rcases cases_of_mem first firstMember with rfl | ⟨firstOld, firstElse⟩
      · rcases cases_of_mem second secondMember with rfl | ⟨secondOld, _⟩
        · rfl
        · exact ((owner second secondOld).mpr same.symm).symm
      · rcases cases_of_mem second secondMember with rfl | ⟨secondOld, _⟩
        · exact (owner first firstOld).mpr same
        · exact valid.unique first firstOld second secondOld same
    · intro id empty
      by_cases here : id = row.id
      · rw [here, own] at empty
        contradiction
      · rw [others id here] at empty ⊢
        exact valid.foreign id empty
  constructor
  · exact validAfter
  · funext device
    by_cases here : device = row.device
    · subst here
      rw [Function.update_self, validAfter.contents_eq_some member]
    · rw [Function.update_of_ne here]
      apply contents_congr valid validAfter
      · intro other present isOther
        apply others
        rw [Ne, owner other present, isOther]
        exact here
      · intro other present isOther
        rcases cases_of_mem other present with rfl | ⟨_, elsewhere⟩
        · exact absurd isOther.symm here
        · exact others other.id elsewhere

/-- The same for the writes of a transaction that stay in one slot. -/
theorem Valid.applyAll_put {tables : Tables} (valid : tables.Valid) {writes : List Write}
    (row : Row) (single : ∀ write ∈ writes, write.slot = row.id)
    (own : ((tables.slot row.id).applyAll writes).subscriptions = [row])
    (owner : ∀ old ∈ tables.subscriptions, old.id = row.id ↔ old.device = row.device) :
    (tables.applyAll writes).Valid ∧ (tables.applyAll writes).contents =
      Function.update tables.contents row.device
        (some ⟨row.data, (tables.applyAll writes).namespacesOf row.id⟩) := by
  apply valid.put _ _ owner
  · intro id elsewhere
    apply slot_applyAll_of_forall_ne
    intro write member same
    exact elsewhere (same.symm.trans (single write member))
  · rw [slot_applyAll_of_forall_eq single]
    exact own

/-- Deleting some rows clears their devices. -/
theorem Valid.deleted {tables : Tables} (valid : tables.Valid) {rows : List Row}
    (present : ∀ row ∈ rows, row ∈ tables.subscriptions) :
    (tables.applyAll (rows.map fun row => .deleteRow row.id)).Valid ∧
      (tables.applyAll (rows.map fun row => .deleteRow row.id)).contents = fun device =>
        if device ∈ rows.map Row.device then none else tables.contents device := by
  have slots := slot_applyAll_deletes tables rows
  generalize tables.applyAll (rows.map fun row => .deleteRow row.id) = after at slots
  have member_iff : ∀ row, row ∈ after.subscriptions ↔
      row ∈ tables.subscriptions ∧ row.id ∉ rows.map Row.id := by
    intro row
    rw [mem_iff_mem_slot, slots]
    split
    · rename_i gone
      simp [emptySlot, gone]
    · rename_i stays
      rw [← mem_iff_mem_slot]
      exact ⟨fun member => ⟨member, stays⟩, fun both => both.1⟩
  have validAfter : after.Valid := by
    constructor
    · intro row member
      obtain ⟨old, stays⟩ := (member_iff row).mp member
      rw [slots, if_neg stays]
      exact valid.primary row old
    · intro first firstMember second secondMember same
      exact valid.unique first ((member_iff first).mp firstMember).1 second
        ((member_iff second).mp secondMember).1 same
    · intro id empty
      rw [slots] at empty ⊢
      split at empty
      · rename_i gone
        rw [if_pos gone]
        rfl
      · rename_i stays
        rw [if_neg stays]
        exact valid.foreign id empty
  refine ⟨validAfter, ?_⟩
  funext device
  split
  · rename_i gone
    rw [contents_eq_none_iff]
    rintro row member rfl
    obtain ⟨old, stays⟩ := (member_iff row).mp member
    obtain ⟨deleted, inside, same⟩ := List.mem_map.mp gone
    rw [valid.eq_of_device (present deleted inside) old same] at inside
    exact stays (List.mem_map_of_mem inside)
  · rename_i stays
    apply contents_congr valid validAfter
    · intro row member here
      rw [slots, if_neg]
      intro gone
      obtain ⟨deleted, inside, same⟩ := List.mem_map.mp gone
      apply stays
      rw [← here, ← valid.eq_of_id (present deleted inside) member same]
      exact List.mem_map_of_mem inside
    · intro row member _
      rw [slots, if_neg ((member_iff row).mp member).2]

/-! ## The namespaces of a slot -/

theorem applyAll_insertNamespaces (tables : Tables) (id : Nat) (namespaces : List Int) :
    tables.applyAll (insertNamespaces id namespaces) =
      { tables with
        subNamespaces := tables.subNamespaces ++ namespaces.map fun ns => (id, ns) } := by
  induction namespaces generalizing tables with
  | nil => simp [insertNamespaces]
  | cons ns rest ih =>
      rw [insertNamespaces, List.map_cons, applyAll_cons]
      apply (ih _).trans
      simp [apply]

theorem namespacesOf_pairs (rows : List Row) (id : Nat) {namespaces : List Int}
    (sorted : namespaces.Pairwise (· < ·)) :
    (Tables.mk rows (namespaces.map fun ns => (id, ns))).namespacesOf id = namespaces := by
  have all : (namespaces.map fun ns => (id, ns)).filter (fun pair => pair.1 = id) =
      namespaces.map fun ns => (id, ns) := by
    apply List.filter_eq_self.mpr
    intro pair member
    obtain ⟨ns, _, rfl⟩ := List.mem_map.mp member
    simp
  rw [namespacesOf, all, List.map_map]
  have same : namespaces.map (Prod.snd ∘ fun ns => (id, ns)) = namespaces := by
    simp [Function.comp_def]
  rw [same]
  exact (sorted.imp Int.le_of_lt).insertionSort_eq

theorem slot_deleteNamespaces (tables : Tables) (id : Nat) :
    (tables.slot id).apply (.deleteNamespaces id) = ⟨(tables.slot id).subscriptions, []⟩ := by
  simp [apply, slot]

end Tables

end Spns.Storage
