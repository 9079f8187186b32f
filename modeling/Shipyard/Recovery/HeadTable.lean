import Shipyard.Recovery.Record

/-!
# Who owns the attempt of a head

The abstract view of the recovery store: the record that each id loads, the
owner that the index names for each head, and the heads that were ever claimed.
The store is meant to keep every record other than a head's owner idle, so that
only the owner can use the head's attempt.
-/

namespace Shipyard.Recovery

theorem update_eq_some_iff {α β : Type} [DecidableEq α] {f : α → Option β} {a i : α}
    {new : Option β} {value : β} :
    Function.update f a new i = some value ↔
      (i = a ∧ new = some value) ∨ (i ≠ a ∧ f i = some value) := by
  by_cases hi : i = a
  · subst hi
    simp
  · simp [hi]

variable (record : RecoveryRecord)

/-- A record that is not waiting for a worker and has used no attempt. -/
def RecoveryRecord.Idle : Prop :=
  record.receipt.status ≠ .pending ∧ record.receipt.attempt = 0

def RecoveryRecord.Spent : Prop := 0 < record.receipt.attempt

structure HeadTable where
  record : String → Option RecoveryRecord
  owner : HeadKey → Option String
  claimed : List HeadKey

namespace HeadTable

def put (table : HeadTable) (id : String) (record : RecoveryRecord) : HeadTable :=
  { table with record := Function.update table.record id (some record) }

def own (table : HeadTable) (head : HeadKey) (id : String) : HeadTable :=
  { table with owner := Function.update table.owner head (some id) }

def claim (table : HeadTable) (head : HeadKey) : HeadTable :=
  { table with claimed := table.claimed ++ [head] }

/-- The record is one of the head's. -/
def Has (table : HeadTable) (head : HeadKey) (id : String) (record : RecoveryRecord) : Prop :=
  table.record id = some record ∧ record.request.head = head

structure Inv (table : HeadTable) : Prop where
  owner : ∀ {head id}, table.owner head = some id → ∃ record, table.Has head id record
  others : ∀ {head owner id record}, table.owner head = some owner → id ≠ owner →
    table.Has head id record → record.Idle
  unique : ∀ {head id id' record record'}, table.owner head = none →
    table.Has head id record → table.Has head id' record' → id = id'
  spent : ∀ {head}, head ∈ table.claimed → ∃ id record, table.Has head id record ∧ record.Spent

variable {table : HeadTable} {head : HeadKey} {id : String} {record : RecoveryRecord}

variable {k : HeadKey} {i : String} {r : RecoveryRecord}

theorem has_put : (table.put id record).Has k i r ↔
      (i = id ∧ r = record ∧ record.request.head = k) ∨ (i ≠ id ∧ table.Has k i r) := by
  rw [Has, put, update_eq_some_iff, or_and_right]
  constructor
  · rintro (⟨⟨hi, heq⟩, hhead⟩ | ⟨⟨hi, hrecord⟩, hhead⟩)
    · cases heq
      exact .inl ⟨hi, rfl, hhead⟩
    · exact .inr ⟨hi, hrecord, hhead⟩
  · rintro (⟨hi, rfl, hhead⟩ | ⟨hi, hrecord, hhead⟩)
    · exact .inl ⟨⟨hi, rfl⟩, hhead⟩
    · exact .inr ⟨⟨hi, hrecord⟩, hhead⟩

theorem owner_own : (table.own head id).owner k = some i ↔
      (k = head ∧ id = i) ∨ (k ≠ head ∧ table.owner k = some i) := by
  rw [own, update_eq_some_iff, Option.some.injEq]

theorem owner_own_none (howner : (table.own head id).owner k = none) :
    k ≠ head ∧ table.owner k = none := by
  by_cases hk : k = head
  · simp [own, hk] at howner
  · simpa [own, hk] using howner

@[simp]
theorem has_claim {k' : HeadKey} : (table.claim k').Has k i r ↔ table.Has k i r := Iff.rfl

/-- A record that replaces another stays with the head and does not give an
attempt back. -/
def Replaces (table : HeadTable) (id : String) (record : RecoveryRecord) : Prop :=
  ∀ old, table.record id = some old →
    old.request.head = record.request.head ∧ (old.Spent → record.Spent)

/-- Every other record of the head is idle. -/
def OthersIdle (table : HeadTable) (head : HeadKey) (id : String) : Prop :=
  ∀ id' record, id' ≠ id → table.Has head id' record → record.Idle

variable (hinv : table.Inv)

include hinv

theorem Inv.spent_put (hreplaces : table.Replaces id record) (hclaimed : head ∈ table.claimed) :
    ∃ i r, (table.put id record).Has head i r ∧ r.Spent := by
  obtain ⟨i, r, hhas, hspent⟩ := hinv.spent hclaimed
  by_cases hi : i = id
  · subst hi
    obtain ⟨hhead, hmono⟩ := hreplaces r hhas.1
    exact ⟨i, record, has_put.mpr (.inl ⟨rfl, rfl, hhead ▸ hhas.2⟩), hmono hspent⟩
  · exact ⟨i, r, has_put.mpr (.inr ⟨hi, hhas⟩), hspent⟩

/-- Replacing a record of the table: one that does not own its head stays idle. -/
theorem Inv.put {old : RecoveryRecord} (hold : table.record id = some old)
    (hreplaces : table.Replaces id record)
    (hplace : ∀ owner, table.owner record.request.head = some owner → owner ≠ id →
      record.Idle) : (table.put id record).Inv := by
  have hhead := (hreplaces old hold).1
  have hback : ∀ {k i r}, (table.put id record).Has k i r → ∃ r', table.Has k i r' := by
    intro k i r hhas
    rcases has_put.mp hhas with ⟨rfl, rfl, rfl⟩ | ⟨_, hhas⟩
    · exact ⟨old, hold, hhead⟩
    · exact ⟨r, hhas⟩
  constructor
  case owner =>
    intro k i howner
    obtain ⟨r, hhas⟩ := hinv.owner howner
    by_cases hi : i = id
    · subst hi
      obtain rfl : old = r := Option.some.inj (hold.symm.trans hhas.1)
      exact ⟨record, has_put.mpr (.inl ⟨rfl, rfl, hhead ▸ hhas.2⟩)⟩
    · exact ⟨r, has_put.mpr (.inr ⟨hi, hhas⟩)⟩
  case others =>
    intro k owner i r howner hne hhas
    rcases has_put.mp hhas with ⟨rfl, rfl, rfl⟩ | ⟨_, hhas⟩
    · exact hplace owner howner (Ne.symm hne)
    · exact hinv.others howner hne hhas
  case unique =>
    intro k i i' r r' howner hhas hhas'
    obtain ⟨_, hbefore⟩ := hback hhas
    obtain ⟨_, hbefore'⟩ := hback hhas'
    exact hinv.unique howner hbefore hbefore'
  case spent =>
    intro k hk
    exact hinv.spent_put hreplaces hk

/-- A new record of a head that no other record has. -/
theorem Inv.putNew (hnone : table.record id = none)
    (hunowned : table.owner record.request.head = none)
    (halone : ∀ i r, ¬table.Has record.request.head i r) : (table.put id record).Inv := by
  constructor
  case owner =>
    intro k i howner
    obtain ⟨r, hhas⟩ := hinv.owner howner
    refine ⟨r, has_put.mpr (.inr ⟨?_, hhas⟩)⟩
    rintro rfl
    exact nomatch hnone.symm.trans hhas.1
  case others =>
    intro k owner i r howner hne hhas
    rcases has_put.mp hhas with ⟨rfl, rfl, rfl⟩ | ⟨_, hhas⟩
    · exact nomatch hunowned.symm.trans howner
    · exact hinv.others howner hne hhas
  case unique =>
    intro k i i' r r' howner hhas hhas'
    rcases has_put.mp hhas with ⟨rfl, rfl, rfl⟩ | ⟨_, hbefore⟩
    · rcases has_put.mp hhas' with ⟨rfl, _, _⟩ | ⟨_, hbefore'⟩
      · rfl
      · exact absurd hbefore' (halone i' r')
    · rcases has_put.mp hhas' with ⟨rfl, rfl, rfl⟩ | ⟨_, hbefore'⟩
      · exact absurd hbefore (halone i r)
      · exact hinv.unique howner hbefore hbefore'
  case spent =>
    intro k hk
    refine hinv.spent_put ?_ hk
    intro old hold
    exact nomatch hnone.symm.trans hold

/-- Making a record the owner of its head, when every other one is idle. -/
theorem Inv.own (hhas : table.Has head id record)
    (hothers : table.OthersIdle head id) : (table.own head id).Inv :=
  { hinv with
    owner := by
      intro k i howner
      rcases owner_own.mp howner with ⟨rfl, rfl⟩ | ⟨-, howner⟩
      · exact ⟨record, hhas⟩
      · exact hinv.owner howner
    others := by
      intro k owner i r howner hne hi
      rcases owner_own.mp howner with ⟨rfl, rfl⟩ | ⟨-, howner⟩
      · exact hothers i r hne hi
      · exact hinv.others howner hne hi
    unique := fun howner => hinv.unique (owner_own_none howner).2 }

/-- Writing a record and making it the owner, whatever holds in between. -/
theorem Inv.putOwn (hreplaces : table.Replaces id record)
    (hothers : table.OthersIdle record.request.head id) :
    ((table.put id record).own record.request.head id).Inv := by
  -- the other heads have no record but those of before
  have hback {k : HeadKey} (hk : k ≠ record.request.head) {i : String} {r : RecoveryRecord}
      (hhas : (table.put id record).Has k i r) : table.Has k i r := by
    rcases has_put.mp hhas with ⟨-, -, hhead⟩ | ⟨-, hbefore⟩
    · exact absurd hhead.symm hk
    · exact hbefore
  constructor
  case owner =>
    intro k i howner
    rcases owner_own.mp howner with ⟨rfl, rfl⟩ | ⟨hk, howner⟩
    · exact ⟨record, has_put.mpr (.inl ⟨rfl, rfl, rfl⟩)⟩
    · obtain ⟨r, hhas⟩ := hinv.owner howner
      refine ⟨r, has_put.mpr (.inr ⟨?_, hhas⟩)⟩
      rintro rfl
      exact hk (hhas.2.symm.trans (hreplaces r hhas.1).1)
  case others =>
    intro k owner i r howner hne hi
    rcases owner_own.mp howner with ⟨rfl, rfl⟩ | ⟨hk, howner⟩
    · rcases has_put.mp hi with ⟨heq, _, _⟩ | ⟨_, hbefore⟩
      · exact absurd heq hne
      · exact hothers i r hne hbefore
    · exact hinv.others howner hne (hback hk hi)
  case unique =>
    intro k i i' r r' howner hi hi'
    obtain ⟨hk, howner⟩ := owner_own_none howner
    exact hinv.unique howner (hback hk hi) (hback hk hi')
  case spent =>
    intro k hk
    exact hinv.spent_put hreplaces hk

theorem Inv.claim (hhas : table.Has head id record)
    (hspent : record.Spent) : (table.claim head).Inv :=
  { hinv with
    spent := by
      intro k hk
      rcases List.mem_append.mp hk with hk | hk
      · exact hinv.spent hk
      · rw [List.mem_singleton] at hk
        exact ⟨id, record, hk ▸ hhas, hspent⟩ }

/-- A head with a record that waits for a worker was never claimed. -/
theorem Inv.not_claimed (hhas : table.Has head id record)
    (hpending : record.receipt.status = .pending) (hfresh : record.receipt.attempt = 0) :
    head ∉ table.claimed := by
  intro hclaimed
  obtain ⟨i, r, hspentHas, hspent⟩ := hinv.spent hclaimed
  have hsame : i = id := by
    cases howner : table.owner head with
    | none => exact hinv.unique howner hspentHas hhas
    | some owner =>
      have hid : id = owner := by
        by_contra hne
        exact (hinv.others howner hne hhas).1 hpending
      have hi : i = owner := by
        by_contra hne
        exact absurd (hinv.others howner hne hspentHas).2 (Nat.ne_of_gt hspent)
      rw [hid, hi]
  subst hsame
  obtain rfl : r = record := Option.some.inj (hspentHas.1.symm.trans hhas.1)
  exact absurd hfresh (Nat.ne_of_gt hspent)

end HeadTable

end Shipyard.Recovery
