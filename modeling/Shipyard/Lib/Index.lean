import Shipyard.Lib.Checks
import Shipyard.Lib.SortedMap

/-!
# Indexing without conflicts

A loop that checks its elements and enters each under a key. An entry may be repeated but
not changed. The loop ends exactly if every check passes and no two elements claim
different values for one key, whatever the order of the elements, and the index it builds
depends only on which elements there are.
-/

namespace Lib

open List

variable {α κ ν ε : Type} [LinearOrder κ]

theorem SortedMap.get?_insert_eq_some_iff {start : SortedMap κ ν} {key k : κ} {value v : ν}
    (hkept : ∀ previous, start.get? key = some previous → previous = value) :
    (start.insert key value).get? k = some v ↔
      start.get? k = some v ∨ key = k ∧ value = v := by
  by_cases hkey : k = key
  · subst hkey
    rw [SortedMap.get?_insert_self, Option.some.injEq]
    constructor
    · exact fun hvalue => .inr ⟨rfl, hvalue⟩
    · rintro (hstart | ⟨_, hvalue⟩)
      · exact (hkept v hstart).symm
      · exact hvalue
  · rw [SortedMap.get?_insert_of_ne _ hkey]
    exact ⟨.inl, fun hor => hor.resolve_right fun hboth => hkey hboth.1.symm⟩

/-! ## Lists as maps -/

/-- The elements of a list, each under its key. -/
def indexBy {α : Type} (key : α → κ) (items : List α) : SortedMap κ α :=
  items.foldl (fun map item => map.insert (key item) item) SortedMap.empty

theorem get?_foldl_insert_key {key : α → κ} {items : List α} {start : SortedMap κ α}
    (hkeys : ∀ first ∈ items, ∀ second ∈ items, key first = key second → first = second)
    (hkept : ∀ item ∈ items, ∀ previous, start.get? (key item) = some previous →
      previous = item) {k : κ} {x : α} :
    (items.foldl (fun map item => map.insert (key item) item) start).get? k = some x ↔
      start.get? k = some x ∨ x ∈ items ∧ key x = k := by
  induction items generalizing start with
  | nil => simp
  | cons item rest ih =>
    have hentry : ∀ {k x}, (start.insert (key item) item).get? k = some x ↔
        start.get? k = some x ∨ key item = k ∧ item = x :=
      SortedMap.get?_insert_eq_some_iff (hkept item mem_cons_self)
    rw [foldl_cons, ih, hentry]
    · rw [or_assoc, mem_cons]
      refine or_congr_right ?_
      constructor
      · rintro (⟨hkey, rfl⟩ | ⟨hrest, hkey⟩)
        · exact ⟨.inl rfl, hkey⟩
        · exact ⟨.inr hrest, hkey⟩
      · rintro ⟨rfl | hrest, hkey⟩
        · exact .inl ⟨hkey, rfl⟩
        · exact .inr ⟨hrest, hkey⟩
    · exact fun first hfirst second hsecond =>
        hkeys first (mem_cons_of_mem _ hfirst) second (mem_cons_of_mem _ hsecond)
    · intro later hlater previous hprevious
      rcases hentry.mp hprevious with hstart | ⟨hkey, rfl⟩
      · exact hkept later (mem_cons_of_mem _ hlater) previous hstart
      · exact hkeys item mem_cons_self later (mem_cons_of_mem _ hlater) hkey

theorem get?_indexBy {key : α → κ} {items : List α}
    (hkeys : ∀ first ∈ items, ∀ second ∈ items, key first = key second → first = second)
    {k : κ} {x : α} : (indexBy key items).get? k = some x ↔ x ∈ items ∧ key x = k := by
  rw [indexBy, get?_foldl_insert_key hkeys fun item _ previous hprevious => by cases hprevious]
  simp

/-! ## Entries that do not change -/

/-- How the elements of a loop are checked and entered. -/
structure Indexing (α κ ν ε : Type) where
  check : α → Except ε Unit
  conflict : α → ε
  key : α → κ
  value : α → ν

namespace Indexing

variable (indexing : Indexing α κ ν ε)

/-- All elements pass their checks and agree with each other and with the start. -/
structure Consistent (items : List α) (start : SortedMap κ ν) : Prop where
  checked : ∀ item ∈ items, indexing.check item = .ok ()
  kept : ∀ item ∈ items, ∀ previous, start.get? (indexing.key item) = some previous →
    previous = indexing.value item
  agree : ∀ first ∈ items, ∀ second ∈ items, indexing.key first = indexing.key second →
    indexing.value first = indexing.value second

/-- The entries of the index. -/
def Indexes (items : List α) (start map : SortedMap κ ν) : Prop :=
  ∀ key value, map.get? key = some value ↔
    start.get? key = some value ∨
      ∃ item ∈ items, indexing.key item = key ∧ indexing.value item = value

variable {indexing} {items other : List α} {start map map' : SortedMap κ ν}

theorem Indexes.unique (hmap : indexing.Indexes items start map)
    (hmap' : indexing.Indexes items start map') : map = map' := by
  ext key value
  exact (hmap key value).trans (hmap' key value).symm

theorem Indexes.of_mem_iff (hmem : ∀ item, item ∈ items ↔ item ∈ other)
    (hmap : indexing.Indexes items start map) : indexing.Indexes other start map := by
  intro key value
  rw [hmap key value]
  simp only [hmem]

theorem Consistent.of_subset (hsubset : ∀ item ∈ other, item ∈ items)
    (hitems : indexing.Consistent items start) : indexing.Consistent other start where
  checked item hitem := hitems.checked item (hsubset item hitem)
  kept item hitem := hitems.kept item (hsubset item hitem)
  agree first hfirst second hsecond :=
    hitems.agree first (hsubset first hfirst) second (hsubset second hsecond)

end Indexing

variable [DecidableEq ν]

/-- Enters a value under a key that has none, or this one. -/
def SortedMap.insertUnchanged (map : SortedMap κ ν) (conflict : ε) (key : κ) (value : ν) :
    Except ε (SortedMap κ ν) :=
  match map.get? key with
  | some previous =>
    if previous ≠ value then .error conflict else .ok (map.insert key value)
  | none => .ok (map.insert key value)

theorem SortedMap.insertUnchanged_eq_ok {map map' : SortedMap κ ν} {conflict : ε} {key : κ}
    {value : ν} :
    map.insertUnchanged conflict key value = .ok map' ↔
      (∀ previous, map.get? key = some previous → previous = value) ∧
        map.insert key value = map' := by
  unfold insertUnchanged
  cases map.get? key with
  | none => simp
  | some previous =>
    by_cases hsame : previous = value
    · simp [hsame]
    · simp [hsame]

namespace Indexing

variable (indexing : Indexing α κ ν ε)

def step (map : SortedMap κ ν) (item : α) : Except ε (SortedMap κ ν) := do
  indexing.check item
  map.insertUnchanged (indexing.conflict item) (indexing.key item) (indexing.value item)

def run (items : List α) (start : SortedMap κ ν) : Except ε (SortedMap κ ν) :=
  items.foldlM indexing.step start

variable {indexing} {items other : List α} {start map map' : SortedMap κ ν}

theorem step_eq_ok {item : α} : indexing.step start item = .ok map ↔
    indexing.check item = .ok () ∧
      (∀ previous, start.get? (indexing.key item) = some previous →
        previous = indexing.value item) ∧
      start.insert (indexing.key item) (indexing.value item) = map := by
  rw [step, Except.check_eq_ok, SortedMap.insertUnchanged_eq_ok]

theorem run_spec (hrun : indexing.run items start = .ok map) :
    indexing.Consistent items start ∧ indexing.Indexes items start map := by
  induction items generalizing start with
  | nil =>
    cases hrun
    exact ⟨⟨nofun, nofun, nofun⟩, fun key value => by simp⟩
  | cons item rest ih =>
    rw [run, foldlM_cons] at hrun
    obtain ⟨next, hstep, hrun⟩ := Except.bind_eq_ok.mp hrun
    obtain ⟨hcheck, hkept, rfl⟩ := step_eq_ok.mp hstep
    obtain ⟨hrest, hmap⟩ := ih hrun
    have hentry := fun k v => SortedMap.get?_insert_eq_some_iff (k := k) (v := v) hkept
    -- an element of the rest agrees with the first, whose value stands in the next index
    have hfirst : ∀ later ∈ rest, indexing.key item = indexing.key later →
        indexing.value item = indexing.value later := fun later hlater hkey =>
      hrest.kept later hlater _ ((hentry _ _).mpr (.inr ⟨hkey, rfl⟩))
    refine ⟨⟨?_, ?_, ?_⟩, ?_⟩
    · exact forall_mem_cons.mpr ⟨hcheck, hrest.checked⟩
    · refine forall_mem_cons.mpr ⟨hkept, fun later hlater previous hprevious => ?_⟩
      exact hrest.kept later hlater previous ((hentry _ _).mpr (.inl hprevious))
    · intro first hfirstMem second hsecondMem hkey
      rcases mem_cons.mp hfirstMem with rfl | hearly <;>
        rcases mem_cons.mp hsecondMem with rfl | hlate
      · rfl
      · exact hfirst second hlate hkey
      · exact (hfirst first hearly hkey.symm).symm
      · exact hrest.agree first hearly second hlate hkey
    · intro key value
      rw [hmap key value, hentry]
      simp only [exists_mem_cons_iff, or_assoc]

theorem run_of_consistent (hitems : indexing.Consistent items start) :
    ∃ map, indexing.run items start = .ok map := by
  induction items generalizing start with
  | nil => exact ⟨start, rfl⟩
  | cons item rest ih =>
    have hkept := hitems.kept item mem_cons_self
    have hstep : indexing.step start item =
        .ok (start.insert (indexing.key item) (indexing.value item)) :=
      step_eq_ok.mpr ⟨hitems.checked item mem_cons_self, hkept, rfl⟩
    have hrest : indexing.Consistent rest
        (start.insert (indexing.key item) (indexing.value item)) := by
      refine ⟨fun later hlater => hitems.checked later (mem_cons_of_mem _ hlater),
        fun later hlater previous hprevious => ?_, fun first hfirst second hsecond =>
          hitems.agree first (mem_cons_of_mem _ hfirst) second
            (mem_cons_of_mem _ hsecond)⟩
      rcases (SortedMap.get?_insert_eq_some_iff hkept).mp hprevious with hstart | ⟨hkey, hvalue⟩
      · exact hitems.kept later (mem_cons_of_mem _ hlater) previous hstart
      · rw [← hvalue]
        exact hitems.agree item mem_cons_self later (mem_cons_of_mem _ hlater) hkey
    obtain ⟨map, hrun⟩ := ih hrest
    refine ⟨map, ?_⟩
    rw [run, foldlM_cons, hstep]
    exact hrun

/-- Only which elements there are matters. -/
theorem run_eq_ok_of_mem_iff (hmem : ∀ item, item ∈ items ↔ item ∈ other)
    (hrun : indexing.run items start = .ok map) : indexing.run other start = .ok map := by
  obtain ⟨hitems, hmap⟩ := run_spec hrun
  obtain ⟨map', hrun'⟩ := run_of_consistent
    (hitems.of_subset fun item hitem => (hmem item).mpr hitem)
  rw [hrun', (run_spec hrun').2.unique (hmap.of_mem_iff hmem)]

end Indexing

end Lib
