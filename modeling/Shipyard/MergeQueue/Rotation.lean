import Shipyard.MergeQueue.Audit

/-!
# Rotations that stop

A rotation removes the segment of the highest number, moves the others up one by one and
closes the active file. It can stop between two of these, and the next one starts over.
What is read is the end of what was written in every case. But a rotation that finds a
gap in the numbers does not close it, and removes a segment before the limit is reached.
-/

namespace Shipyard.MergeQueue

open Lib SegmentedLog List

/-- What is done to one log: a write, or a rotation, which may stop after some of its file
operations. -/
inductive LogCall (ρ : Type) where
  | append (record : ρ)
  | rotateBeforeOpen (stop : Option Nat)
deriving DecidableEq

def LogCall.written {ρ : Type} : LogCall ρ → List ρ
  | .append record => [record]
  | .rotateBeforeOpen _ => []

variable {ρ : Type} (lineBytes : ρ → Nat) (policy : LogRetentionPolicy)

def LogCall.ops (log : SegmentedLog ρ) : LogCall ρ → List (LogOp ρ)
  | .append record => [.append record]
  | .rotateBeforeOpen stop =>
    let ops := rotateBeforeOpenUnlocked lineBytes policy.rotatedSegments log.active
    stop.elim ops ops.take

def callLog (log : SegmentedLog ρ) (call : LogCall ρ) : SegmentedLog ρ :=
  (call.ops lineBytes policy log).foldl run log

def logAfter (calls : List (LogCall ρ)) : SegmentedLog ρ :=
  calls.foldl (callLog lineBytes policy) {}

/-- A rotation that removes content leaves as many closed segments as the limit. -/
def KeepsNewer (before after : SegmentedLog ρ) : Prop :=
  after.files ≠ before.files → policy.rotatedSegments ≤ after.closed.length

/-- There is something to close. -/
def rotates (log : SegmentedLog ρ) : Bool :=
  log.active.any fun contents => fileBytes lineBytes contents ≠ 0

/-- If a segment has the highest number, all the lower numbers are taken. -/
def Unbroken (log : SegmentedLog ρ) : Prop :=
  rotates lineBytes log = true → ¬ Free policy.rotatedSegments log →
    policy.rotatedSegments ≤ (log.run (.remove policy.rotatedSegments)).closed.length + 1

/-! ## One rotation -/

variable {policy} {log : SegmentedLog ρ} {limit : Nat}

theorem foldl_pruneExcess (hlog : Bounded limit log) (done : Nat) :
    ((pruneExcessSegments limit).take done).foldl run log = log := by
  have hbeyond : ∀ op ∈ (pruneExcessSegments limit).take done, log.run op = log := by
    intro op hop
    obtain ⟨index, hindex, rfl⟩ := mem_map.mp (mem_of_mem_take hop)
    have habove := (mem_range'_1.mp hindex).1
    have hfree : Free index log := fun segment hmem => by
      have hbound := (hlog segment hmem).2
      omega
    rw [run, hfree.removeSegment_eq]
  generalize (pruneExcessSegments limit).take done = ops at hbeyond ⊢
  induction ops with
  | nil => rfl
  | cons op rest ih =>
    rw [foldl_cons, hbeyond op mem_cons_self]
    exact ih fun other hother => hbeyond other (mem_cons_of_mem _ hother)

/-- While the number above is free, the segments move up and the active file is closed. The
files stay as they are wherever this stops. -/
theorem foldl_shifts {count : Nat} (hcount : count < limit) (hlog : Bounded limit log)
    (hfree : Free (count + 1) log) (done : Nat) :
    ∃ after, (((List.range' 1 count).reverse.map LogOp.shift ++ [LogOp.close]).take done).foldl
        run log = after ∧ Bounded limit after ∧ after.files = log.files ∧
      (count < done → after.active = none) := by
  induction count generalizing log done with
  | zero =>
    cases done with
    | zero => exact ⟨log, rfl, hlog, rfl, nofun⟩
    | succ done =>
      obtain ⟨hfiles, hactive, hclosed⟩ := close_of_free hlog hfree
      refine ⟨log.run .close, by simp, fun segment hmem => ?_, hfiles, fun _ => hactive⟩
      rcases hclosed segment hmem with hnew | hold
      · omega
      · exact hlog segment hold
  | succ count ih =>
    cases done with
    | zero => exact ⟨log, rfl, hlog, rfl, nofun⟩
    | succ done =>
      obtain ⟨hclosed, hfiles⟩ := shift_of_free hfree
      have hmoved : ∀ segment ∈ (log.run (.shift (count + 1))).closed,
          (1 ≤ segment.1 ∧ segment.1 ≤ limit) ∧ segment.1 ≠ count + 1 := by
        rw [hclosed]
        rintro _ hmem
        obtain ⟨segment, hsegment, rfl⟩ := mem_map.mp hmem
        have hbound := hlog segment hsegment
        split <;> omega
      obtain ⟨after, hrun, hafter, hsame, hactive⟩ := ih (Nat.lt_of_succ_lt hcount)
        (fun segment hmem => (hmoved segment hmem).1) (fun segment hmem => (hmoved segment hmem).2)
        done
      refine ⟨after, ?_, hafter, hsame.trans hfiles, fun hdone => hactive (by omega)⟩
      rw [range'_1_concat, reverse_append, Nat.add_comm 1 count]
      exact hrun

/-- A rotation that stops anywhere has left the files as they were, or removed those of the
highest number. -/
theorem foldl_rotation (hlog : Bounded policy.rotatedSegments log) (done : Nat) :
    ∃ after, ((rotateBeforeOpenUnlocked lineBytes policy.rotatedSegments log.active).take
        done).foldl run log = after ∧ Bounded policy.rotatedSegments after ∧
      (after.files = log.files ∨
        after.files = (log.run (.remove policy.rotatedSegments)).files) ∧
      ((rotateBeforeOpenUnlocked lineBytes policy.rotatedSegments log.active).length ≤ done →
        if rotates lineBytes log then
          after.files = (log.run (.remove policy.rotatedSegments)).files ∧ after.active = none
        else after = log) := by
  have hlimit := policy.atLeastOne
  have hops : rotateBeforeOpenUnlocked lineBytes policy.rotatedSegments log.active =
      pruneExcessSegments policy.rotatedSegments ++ if rotates lineBytes log then
        .remove policy.rotatedSegments ::
          ((List.range' 1 (policy.rotatedSegments - 1)).reverse.map .shift ++ [.close])
      else [] := by
    simp only [rotateBeforeOpenUnlocked, Nat.max_eq_left hlimit]
    rfl
  rw [hops, take_append, foldl_append, foldl_pruneExcess hlog, length_append]
  cases rotates lineBytes log with
  | false => exact ⟨log, by simp, hlog, .inl rfl, fun _ => rfl⟩
  | true =>
    simp only [if_true]
    cases hdone : done - (pruneExcessSegments policy.rotatedSegments).length with
    | zero =>
      refine ⟨log, rfl, hlog, .inl rfl, fun hall => ?_⟩
      rw [length_cons] at hall
      omega
    | succ rest =>
      obtain ⟨after, hrun, hafter, hfiles, hactive⟩ := foldl_shifts (Nat.sub_lt hlimit Nat.one_pos)
        (fun segment hmem => hlog segment (mem_removeSegment hmem))
        (by rw [Nat.sub_add_cancel hlimit]; exact free_remove policy.rotatedSegments log) rest
      refine ⟨after, hrun, hafter, .inr hfiles, fun hall => ⟨hfiles, hactive ?_⟩⟩
      simp only [length_cons, length_append, length_map, length_reverse,
        length_range', length_nil] at hall
      omega

/-! ## Runs -/

theorem logAfter_concat (calls : List (LogCall ρ)) (call : LogCall ρ) :
    logAfter lineBytes policy (calls ++ [call]) =
      callLog lineBytes policy (logAfter lineBytes policy calls) call := by
  rw [logAfter, foldl_append]
  rfl

theorem callLog_spec (hlog : Bounded policy.rotatedSegments log) (call : LogCall ρ) :
    Bounded policy.rotatedSegments (callLog lineBytes policy log call) ∧
      (callLog lineBytes policy log call).records <:+ log.records ++ call.written := by
  cases call with
  | append record =>
    refine ⟨hlog, [], ?_⟩
    change (log.run (.append record)).records = log.records ++ [record]
    rw [records, records, files, files, run]
    cases log.active <;> simp
  | rotateBeforeOpen stop =>
    obtain ⟨done, hops⟩ : ∃ done, (LogCall.rotateBeforeOpen stop).ops lineBytes policy log =
        (rotateBeforeOpenUnlocked lineBytes policy.rotatedSegments log.active).take done := by
      cases stop with
      | none => exact ⟨_, take_length.symm⟩
      | some done => exact ⟨done, rfl⟩
    obtain ⟨after, hrun, hafter, hfiles, -⟩ := foldl_rotation lineBytes hlog done
    rw [callLog, hops, hrun, LogCall.written, append_nil, records, records]
    refine ⟨hafter, ?_⟩
    obtain ⟨front, hfront⟩ := files_remove hlog
    rcases hfiles with hfiles | hfiles
    · exact ⟨[], by rw [hfiles, nil_append]⟩
    · exact ⟨front.flatten, by rw [hfiles, ← flatten_append, hfront]⟩

theorem logAfter_spec (policy : LogRetentionPolicy) (calls : List (LogCall ρ)) :
    Bounded policy.rotatedSegments (logAfter lineBytes policy calls) ∧
      (logAfter lineBytes policy calls).records <:+ calls.flatMap LogCall.written := by
  induction calls using List.reverseRecOn with
  | nil => exact ⟨nofun, suffix_refl _⟩
  | append_singleton calls call ih =>
    obtain ⟨hlog, front, hwritten⟩ := ih
    obtain ⟨hafter, hrecords⟩ := callLog_spec lineBytes hlog call
    rw [logAfter_concat, flatMap_append, flatMap_singleton, ← hwritten,
      append_assoc]
    exact ⟨hafter, hrecords.trans (suffix_append _ _)⟩

/-- Wherever the rotations stop, no more segments are kept than the policy allows. -/
theorem closed_segments_stay_within_limit (policy : LogRetentionPolicy)
    (calls : List (LogCall ρ)) :
    (logAfter lineBytes policy calls).closed.length ≤ policy.rotatedSegments := by
  refine Numbered.length_le ?_ (logAfter_spec lineBytes policy calls).1
  induction calls using reverseRecOn with
  | nil => exact nodup_nil
  | append_singleton calls call ih =>
    rw [logAfter_concat]
    exact foldlRecOn _ _ ih fun _ hlog op _ => hlog.run op

theorem length_files (log : SegmentedLog ρ) :
    log.files.length = log.closed.length + log.active.toList.length := by
  simp [files]

/-- A completed rotation keeps newer segments for what it removes exactly if it found no
gap below the highest number. -/
theorem keepsNewer_iff (hlog : Bounded policy.rotatedSegments log) :
    KeepsNewer policy log (callLog lineBytes policy log (.rotateBeforeOpen none)) ↔
      Unbroken lineBytes policy log := by
  obtain ⟨after, hrun, -, -, hdone⟩ := foldl_rotation lineBytes hlog
    (rotateBeforeOpenUnlocked lineBytes policy.rotatedSegments log.active).length
  rw [take_length] at hrun
  rw [callLog, LogCall.ops, Option.elim_none, hrun]
  replace hdone := hdone le_rfl
  cases hrotates : rotates lineBytes log with
  | false =>
    rw [hrotates] at hdone
    obtain rfl : after = log := hdone
    exact iff_of_true (fun hdiffer => absurd rfl hdiffer) fun hsome => by simp [hrotates] at hsome
  | true =>
    rw [hrotates] at hdone
    obtain ⟨hfiles, hactive⟩ := hdone
    by_cases hfree : Free policy.rotatedSegments log
    · have hsame : log.run (.remove policy.rotatedSegments) = log := by
        rw [run, hfree.removeSegment_eq]
      rw [hsame] at hfiles
      exact iff_of_true (fun hdiffer => absurd hfiles hdiffer) fun _ htaken => absurd hfree htaken
    · obtain ⟨contents, hcontents, -⟩ := (Option.any_eq_true ..).mp hrotates
      have hlength := congrArg List.length hfiles
      have hactive' : (log.run (.remove policy.rotatedSegments)).active = some contents := hcontents
      rw [length_files, length_files, hactive, hactive'] at hlength
      have hdiffer : after.files ≠ log.files := by
        intro hsame
        have hcount := congrArg List.length (hfiles.symm.trans hsame)
        rw [length_files, length_files] at hcount
        have hless : (removeSegment policy.rotatedSegments log.closed).length < log.closed.length :=
          length_filter_lt_length_iff_exists.mpr (by simpa [Free] using hfree)
        exact absurd hcount (Nat.add_lt_add_right hless _).ne
      simp only [KeepsNewer, Unbroken, hdiffer, hrotates, hfree, ne_eq, not_false_eq_true,
        forall_const]
      rw [show after.closed.length = _ from hlength]
      rfl

/-- Four bytes with a rotation after each one. The last rotation stops when it has removed
segment 3 and moved segment 2 there. -/
def stoppedCalls : List (LogCall UInt8) :=
  [.append 0, .rotateBeforeOpen none, .append 1, .rotateBeforeOpen none, .append 2,
    .rotateBeforeOpen none, .append 3, .rotateBeforeOpen (some 31)]

end Shipyard.MergeQueue
