import Mathlib.Data.List.Sort

/-!
# Logs that rotate through numbered segments

A log is an active file and closed segments with numbers, the highest number
being the oldest. A reader folds its records, oldest first. While files are
moved only when that fold is at its start, each closed segment leads the fold
from the start back to the start; then neither the order nor the loss of closed
segments changes what a reader computes. In general segments keep their reading
order as long as each one moves to a free number.
-/

namespace Lib

open List

variable {ρ σ : Type}

structure SegmentedLog (ρ : Type) where
  active : Option (List ρ) := none
  closed : List (Nat × List ρ) := []
deriving DecidableEq

/-- One operation on the files of a log. -/
inductive LogOp (ρ : Type) where
  /-- Remove the closed segment of this number, if there is one. -/
  | remove (index : Nat)
  /-- Rename a closed segment to the next number, replacing the one there. -/
  | shift (index : Nat)
  /-- Rename the active file to segment 1. -/
  | close
  | append (record : ρ)
deriving DecidableEq

/-- The records that an operation adds to the history of the log. -/
def LogOp.appended : LogOp ρ → List ρ
  | .remove _ => []
  | .shift _ => []
  | .close => []
  | .append record => [record]

namespace SegmentedLog

/-- The files in reading order: from the highest number down, then the active one. -/
def files (log : SegmentedLog ρ) : List (List ρ) :=
  (log.closed.insertionSort fun left right => right.1 ≤ left.1).map Prod.snd ++ log.active.toList

/-- The retained records, oldest first. -/
def records (log : SegmentedLog ρ) : List ρ := log.files.flatten

def removeSegment (index : Nat) (closed : List (Nat × List ρ)) : List (Nat × List ρ) :=
  closed.filter fun segment => segment.1 ≠ index

def run (log : SegmentedLog ρ) : LogOp ρ → SegmentedLog ρ
  | .remove index => { log with closed := removeSegment index log.closed }
  | .shift index =>
    if log.closed.any fun segment => segment.1 = index then
      { log with
        closed := (removeSegment (index + 1) log.closed).map fun segment =>
          if segment.1 = index then (index + 1, segment.2) else segment }
    else log
  | .close =>
    match log.active with
    | none => log
    | some contents => { active := none, closed := (1, contents) :: removeSegment 1 log.closed }
  | .append record => { log with active := some (log.active.getD [] ++ [record]) }

theorem mem_removeSegment {index : Nat} {closed : List (Nat × List ρ)} {segment : Nat × List ρ}
    (hmem : segment ∈ removeSegment index closed) : segment ∈ closed :=
  (mem_filter.mp hmem).1

/-! ## Reading order -/

section Order

variable {limit index : Nat} {log : SegmentedLog ρ}

/-- The closed segments have numbers from 1 to a limit. -/
def Bounded (limit : Nat) (log : SegmentedLog ρ) : Prop :=
  ∀ segment ∈ log.closed, 1 ≤ segment.1 ∧ segment.1 ≤ limit

/-- No closed segment has this number. -/
def Free (index : Nat) (log : SegmentedLog ρ) : Prop := ∀ segment ∈ log.closed, segment.1 ≠ index

theorem Free.removeSegment_eq (hfree : Free index log) :
    removeSegment index log.closed = log.closed :=
  filter_eq_self.mpr fun segment hmem => decide_eq_true (hfree segment hmem)

theorem free_remove (index : Nat) (log : SegmentedLog ρ) : Free index (log.run (.remove index)) :=
  fun _ hmem => of_decide_eq_true (mem_filter.mp hmem).2

theorem orderedInsert_append {segment : Nat × List ρ} {front back : List (Nat × List ρ)}
    (hfront : ∀ older ∈ front, segment.1 < older.1) :
    (front ++ back).orderedInsert (fun left right => right.1 ≤ left.1) segment =
      front ++ back.orderedInsert (fun left right => right.1 ≤ left.1) segment := by
  induction front with
  | nil => rfl
  | cons older rest ih =>
    obtain ⟨holder, hrest⟩ := forall_mem_cons.mp hfront
    rw [cons_append, orderedInsert_cons, if_neg (Nat.not_le.mpr holder), ih hrest]
    rfl

/-- The segments of the highest number are read first. -/
theorem exists_sorted_eq {closed : List (Nat × List ρ)}
    (hbound : ∀ segment ∈ closed, segment.1 ≤ limit) :
    ∃ front, (∀ segment ∈ front, segment.1 = limit) ∧
      closed.insertionSort (fun left right => right.1 ≤ left.1) =
        front ++ (removeSegment limit closed).insertionSort fun left right => right.1 ≤ left.1 := by
  induction closed with
  | nil => exact ⟨[], nofun, rfl⟩
  | cons segment rest ih =>
    obtain ⟨hsegment, hrest⟩ := forall_mem_cons.mp hbound
    obtain ⟨front, hfront, hsorted⟩ := ih hrest
    by_cases hlimit : segment.1 = limit
    · refine ⟨segment :: front, forall_mem_cons.mpr ⟨hlimit, hfront⟩, ?_⟩
      rw [removeSegment, filter_cons_of_neg (by simpa using hlimit), insertionSort_cons,
        cons_append, ← removeSegment, ← hsorted]
      cases hnext : rest.insertionSort fun left right => right.1 ≤ left.1 with
      | nil => rfl
      | cons next later =>
        have hmem : next ∈ rest := (mem_insertionSort _).mp (hnext ▸ mem_cons_self)
        rw [orderedInsert_cons, if_pos (hlimit.symm ▸ hrest next hmem)]
    · refine ⟨front, hfront, ?_⟩
      rw [removeSegment, filter_cons_of_pos (by simpa using hlimit), insertionSort_cons,
        insertionSort_cons, hsorted, ← removeSegment, orderedInsert_append]
      intro older holder
      rw [hfront older holder]
      exact lt_of_le_of_ne hsegment hlimit

theorem files_remove (hbound : Bounded limit log) :
    (log.run (.remove limit)).files <:+ log.files := by
  obtain ⟨front, -, hsorted⟩ := exists_sorted_eq fun segment hmem => (hbound segment hmem).2
  rw [files, files, hsorted, map_append, append_assoc]
  exact suffix_append _ _

/-- A segment moves up to a number that is free. -/
theorem shift_of_free (hfree : Free (index + 1) log) :
    (log.run (.shift index)).closed = log.closed.map (fun segment =>
        if segment.1 = index then (index + 1, segment.2) else segment) ∧
      (log.run (.shift index)).files = log.files := by
  have hclosed : (log.run (.shift index)).closed = log.closed.map (fun segment =>
      if segment.1 = index then (index + 1, segment.2) else segment) := by
    rw [run, hfree.removeSegment_eq]
    split
    · rfl
    next hnone =>
      refine ((map_congr_left fun segment hmem => if_neg fun hnumber => hnone ?_).trans
        (map_id _)).symm
      exact any_eq_true.mpr ⟨segment, hmem, decide_eq_true hnumber⟩
  have hactive : (log.run (.shift index)).active = log.active := by
    rw [run]
    split <;> rfl
  refine ⟨hclosed, ?_⟩
  rw [files, files, hclosed, hactive, ← map_insertionSort
    (fun left right : Nat × List ρ => right.1 ≤ left.1), map_map]
  · congr 1
    refine map_congr_left fun segment _ => ?_
    rw [Function.comp_apply]
    split <;> rfl
  · intro left hleft right hright
    have hleftFree := hfree left hleft
    have hrightFree := hfree right hright
    split <;> split <;> grind

/-- The active file becomes the newest segment. -/
theorem close_of_free (hbound : Bounded limit log) (hfree : Free 1 log) :
    (log.run .close).files = log.files ∧ (log.run .close).active = none ∧
      ∀ segment ∈ (log.run .close).closed, segment.1 = 1 ∨ segment ∈ log.closed := by
  rw [run]
  split
  next hactive => exact ⟨rfl, hactive, fun _ => .inr⟩
  next contents hactive =>
    refine ⟨?_, rfl, fun segment hmem => ?_⟩
    · rw [files, files, hactive, hfree.removeSegment_eq, insertionSort_cons]
      rw [← append_nil (List.insertionSort _ log.closed), orderedInsert_append]
      · simp
      · intro older holder
        have hmem := (mem_insertionSort _).mp holder
        exact lt_of_le_of_ne (hbound older hmem).1 (hfree older hmem).symm
    · rcases mem_cons.mp hmem with rfl | hold
      · exact .inl rfl
      · exact .inr (mem_removeSegment hold)

/-- The closed segments have different numbers. -/
def Numbered (log : SegmentedLog ρ) : Prop := (log.closed.map Prod.fst).Nodup

theorem Numbered.run (hlog : Numbered log) (op : LogOp ρ) : Numbered (log.run op) := by
  have hremove (index) : ((removeSegment index log.closed).map Prod.fst).Nodup :=
    hlog.sublist (filter_sublist.map _)
  cases op with
  | remove index => exact hremove index
  | append record => exact hlog
  | shift index =>
    rw [SegmentedLog.run]
    split
    · rw [Numbered, map_map, Nodup, pairwise_map]
      refine (pairwise_map.mp (hremove (index + 1))).imp_of_mem fun hleft hright hne => ?_
      grind [removeSegment]
    · exact hlog
  | close =>
    rw [SegmentedLog.run]
    split
    · exact hlog
    · exact nodup_cons.mpr ⟨by simp [removeSegment], hremove 1⟩

theorem Numbered.length_le (hlog : Numbered log) (hbound : Bounded limit log) :
    log.closed.length ≤ limit := by
  have hsubset : log.closed.map Prod.fst ⊆ range' 1 limit := by
    intro index hindex
    obtain ⟨segment, hsegment, rfl⟩ := mem_map.mp hindex
    have hnumber := hbound segment hsegment
    exact mem_range'_1.mpr ⟨hnumber.1, by omega⟩
  simpa using (subperm_of_subset hlog hsubset).length_le

end Order

/-! ## What a reader computes -/

variable (step : σ → ρ → σ) (start : σ)

/-- The retained files are as good as the whole history for a reader. -/
structure Faithful (history : List ρ) (log : SegmentedLog ρ) : Prop where
  closed : ∀ segment ∈ log.closed, segment.2.foldl step start = start
  active : (log.active.getD []).foldl step start = history.foldl step start

variable {step start}

theorem foldl_flatten_of_closed {segments : List (List ρ)}
    (hclosed : ∀ segment ∈ segments, segment.foldl step start = start) :
    segments.flatten.foldl step start = start := by
  induction segments with
  | nil => rfl
  | cons segment rest ih =>
    rw [flatten_cons, foldl_append, hclosed segment mem_cons_self]
    exact ih fun other hother => hclosed other (.tail _ hother)

variable {log : SegmentedLog ρ} {history : List ρ}

/-- A reader of the retained files computes what the whole history gives. -/
theorem Faithful.foldl_records (hlog : Faithful step start history log) :
    log.records.foldl step start = history.foldl step start := by
  have hclosed : ∀ segment ∈ (log.closed.insertionSort fun left right => right.1 ≤ left.1).map
      Prod.snd, segment.foldl step start = start := by
    intro contents hcontents
    obtain ⟨segment, hsegment, rfl⟩ := mem_map.mp hcontents
    exact hlog.closed segment ((mem_insertionSort _).mp hsegment)
  rw [records, files, flatten_append, foldl_append, foldl_flatten_of_closed hclosed,
    ← hlog.active]
  cases log.active with
  | none => rfl
  | some contents => simp

/-- Every file operation keeps the log faithful, if the active file is closed
only while the fold is at its start. -/
theorem Faithful.run (hlog : Faithful step start history log) (op : LogOp ρ)
    (hclose : op = .close → history.foldl step start = start) :
    Faithful step start (history ++ op.appended) (log.run op) := by
  cases op with
  | remove index =>
    rw [LogOp.appended, append_nil]
    exact ⟨fun segment hsegment => hlog.closed segment (mem_removeSegment hsegment), hlog.active⟩
  | shift index =>
    rw [LogOp.appended, append_nil, SegmentedLog.run]
    split
    · refine ⟨fun segment hsegment => ?_, hlog.active⟩
      obtain ⟨old, hold, rfl⟩ := mem_map.mp hsegment
      have hbalanced := hlog.closed old (mem_removeSegment hold)
      split <;> exact hbalanced
    · exact hlog
  | close =>
    rw [LogOp.appended, append_nil, SegmentedLog.run]
    split
    · exact hlog
    next contents hactive =>
      have hcontents := hlog.active
      rw [hactive, Option.getD_some, hclose rfl] at hcontents
      refine ⟨fun segment hsegment => ?_, (hclose rfl).symm⟩
      rcases mem_cons.mp hsegment with rfl | hold
      · exact hcontents
      · exact hlog.closed segment (mem_removeSegment hold)
  | append record =>
    refine ⟨hlog.closed, ?_⟩
    simp only [SegmentedLog.run, LogOp.appended, Option.getD_some, foldl_append, hlog.active]

end SegmentedLog

end Lib
