import Mathlib.Data.List.Basic
import Mathlib.Tactic.Common

/-!
# Upgrading a legacy queued request

A queued request of schema 1, 2 or 3 is read as one of the current schema 4 if it holds
nothing that its own schema did not have. Targets nest through host pools and fallback
chains, and the check reaches every target at any depth.
-/

namespace Shipyard.QueueRequest

open List

inductive QueueRequestError where
  | unsupportedSchema (version : Nat)
  | invalidSnapshot (reason : String)
deriving DecidableEq, Repr

-- `ρ` is the data of a record that the upgrade hands on without reading it
variable {ρ : Type}

structure QueuedLocalValidation (ρ : Type) where
  machineEnvironment : List String
  environment : List (String × String)
  integrationCleanup : Option ρ
  rest : ρ

inductive QueuedValidationSnapshot (ρ : Type) where
  | «local» (validation : QueuedLocalValidation ρ)
  | other (rest : ρ)

inductive QueuedBackendSnapshot (ρ τ : Type) where
  | hostPool (members : List τ) (rest : ρ)
  | fallback (backends : List τ) (rest : ρ)
  | other (rest : ρ)

structure QueuedResolvedTarget (ρ : Type) where
  backend : QueuedBackendSnapshot ρ (QueuedResolvedTarget ρ)
  validation : QueuedValidationSnapshot ρ
  rest : ρ

/-- The members of a pool or the backends of a chain. -/
def QueuedResolvedTarget.parts (target : QueuedResolvedTarget ρ) : List (QueuedResolvedTarget ρ) :=
  match target.backend with
  | .hostPool members _ => members
  | .fallback backends _ => backends
  | .other _ => []

theorem sizeOf_part_lt {part target : QueuedResolvedTarget ρ} (hpart : part ∈ target.parts) :
    sizeOf part < sizeOf target := by
  obtain ⟨backend, validation, rest⟩ := target
  cases backend with
  | other => cases hpart
  | hostPool parts | fallback parts =>
    have hsize := sizeOf_lt_of_mem (show part ∈ parts from hpart)
    simp only [QueuedResolvedTarget.mk.sizeOf_spec, QueuedBackendSnapshot.hostPool.sizeOf_spec,
      QueuedBackendSnapshot.fallback.sizeOf_spec]
    omega

/-! ## The nested checks -/

/-- The recursion of both checks: a target's own validation, then its parts. -/
def targetHas (newer : QueuedValidationSnapshot ρ → Bool) (target : QueuedResolvedTarget ρ) :
    Bool :=
  newer target.validation || target.parts.attach.any fun part => targetHas newer part.1
termination_by sizeOf target
decreasing_by exact sizeOf_part_lt part.2

def QueuedValidationSnapshot.hasIntegrationCleanup : QueuedValidationSnapshot ρ → Bool
  | .local validation => validation.integrationCleanup.isSome
  | .other _ => false

def QueuedValidationSnapshot.hasTrustedEnvironment : QueuedValidationSnapshot ρ → Bool
  | .local validation => !validation.machineEnvironment.isEmpty || !validation.environment.isEmpty
  | .other _ => false

def targetHasIntegrationCleanup : QueuedResolvedTarget ρ → Bool :=
  targetHas (·.hasIntegrationCleanup)

def targetHasTrustedEnvironment : QueuedResolvedTarget ρ → Bool :=
  targetHas (·.hasTrustedEnvironment)

/-- The target is one of the targets, or lies in one of them at some depth. -/
inductive Within (inner : QueuedResolvedTarget ρ) : List (QueuedResolvedTarget ρ) → Prop where
  | here {targets : List (QueuedResolvedTarget ρ)} (hinner : inner ∈ targets) : Within inner targets
  | inside {targets : List (QueuedResolvedTarget ρ)} {target : QueuedResolvedTarget ρ}
      (htarget : target ∈ targets) (hinner : Within inner target.parts) : Within inner targets

section Reach

variable {newer : QueuedValidationSnapshot ρ → Bool} {targets : List (QueuedResolvedTarget ρ)}

variable {target : QueuedResolvedTarget ρ}

theorem targetHas_iff : targetHas newer target = true ↔
    newer target.validation = true ∨ target.parts.any (targetHas newer) = true := by
  rw [targetHas, Bool.or_eq_true]
  simp

theorem exists_within_of_has (htarget : target ∈ targets) (hhas : targetHas newer target = true) :
    ∃ inner, Within inner targets ∧ newer inner.validation = true := by
  induction target using targetHas.induct generalizing targets with
  | case1 target ih =>
    rcases targetHas_iff.mp hhas with hown | hparts
    · exact ⟨target, .here htarget, hown⟩
    · obtain ⟨part, hpart, hhas⟩ := any_eq_true.mp hparts
      obtain ⟨inner, hinner, hnewer⟩ := ih ⟨part, hpart⟩ hpart hhas
      exact ⟨inner, .inside htarget hinner, hnewer⟩

/-- The recursion reaches every target at any depth. -/
theorem any_targetHas_iff : targets.any (targetHas newer) = true ↔
    ∃ inner, Within inner targets ∧ newer inner.validation = true := by
  constructor
  · intro hany
    obtain ⟨target, htarget, hhas⟩ := any_eq_true.mp hany
    exact exists_within_of_has htarget hhas
  · rintro ⟨inner, hwithin, hnewer⟩
    induction hwithin with
    | here hinner => exact any_eq_true.mpr ⟨_, hinner, targetHas_iff.mpr (.inl hnewer)⟩
    | inside htarget _ ih => exact any_eq_true.mpr ⟨_, htarget, targetHas_iff.mpr (.inr ih)⟩

end Reach

/-! ## The upgrade -/

inductive QueuedExecutionRequest (ρ : Type) where
  | run (targets : List (QueuedResolvedTarget ρ)) (rest : ρ)
  | ship (targets : List (QueuedResolvedTarget ρ)) (metadataAuthorityReceipt : Option ρ) (rest : ρ)

def QueuedExecutionRequest.targets : QueuedExecutionRequest ρ → List (QueuedResolvedTarget ρ)
  | .run targets _ | .ship targets _ _ => targets

/-- A ship request that carries or implies authority over metadata. -/
def QueuedExecutionRequest.claimsAuthority : QueuedExecutionRequest ρ → Bool
  | .run _ _ => false
  | .ship targets metadataAuthorityReceipt _ =>
    metadataAuthorityReceipt.isSome || targets.isEmpty

structure QueuedExecutionEnvelope (ρ : Type) where
  schemaVersion : Nat
  request : QueuedExecutionRequest ρ
  rest : ρ

def upgradeLegacyRequest (envelope : QueuedExecutionEnvelope ρ) :
    Except QueueRequestError (QueuedExecutionEnvelope ρ) :=
  if envelope.schemaVersion = 4 then .ok envelope
  else if envelope.schemaVersion ∉ [1, 2, 3] then
    .error (.unsupportedSchema envelope.schemaVersion)
  else if envelope.schemaVersion = 1 ∧
      envelope.request.targets.any targetHasTrustedEnvironment then
    .error (.invalidSnapshot "legacy v1 request contains v2 trusted-environment fields")
  else if envelope.schemaVersion ≤ 3 ∧
      envelope.request.targets.any targetHasIntegrationCleanup then
    .error (.invalidSnapshot "legacy request contains v4 integration checkout custody")
  else if envelope.request.claimsAuthority then
    .error (.invalidSnapshot
      "legacy request cannot carry or imply zero-target metadata authority")
  else .ok { envelope with schemaVersion := 4 }

/-- The validation has a field that came after a legacy version. -/
def QueuedValidationSnapshot.NewerThan (validation : QueuedValidationSnapshot ρ) (version : Nat) :
    Prop :=
  version = 1 ∧ validation.hasTrustedEnvironment = true ∨ validation.hasIntegrationCleanup = true

/-- A legacy request is upgraded if and only if no target at any depth has a field newer than
its version and it claims no authority over metadata; only the version changes. -/
theorem legacy_request_is_upgraded_iff (envelope upgraded : QueuedExecutionEnvelope ρ)
    (hlegacy : envelope.schemaVersion ∈ [1, 2, 3]) :
    upgradeLegacyRequest envelope = .ok upgraded ↔
      (∀ inner, Within inner envelope.request.targets →
        ¬inner.validation.NewerThan envelope.schemaVersion) ∧
      envelope.request.claimsAuthority = false ∧
      upgraded = { envelope with schemaVersion := 4 } := by
  have hversion : envelope.schemaVersion ≠ 4 ∧ envelope.schemaVersion ≤ 3 := by
    simp only [mem_cons, not_mem_nil, or_false] at hlegacy
    omega
  rw [upgradeLegacyRequest, if_neg hversion.1, if_neg (not_not.mpr hlegacy)]
  split_ifs with henvironment hcustody hauthority
  · obtain ⟨inner, hwithin, hhas⟩ := any_targetHas_iff.mp henvironment.2
    exact ⟨nofun, fun h => absurd (.inl ⟨henvironment.1, hhas⟩) (h.1 inner hwithin)⟩
  · obtain ⟨inner, hwithin, hhas⟩ := any_targetHas_iff.mp hcustody.2
    exact ⟨nofun, fun h => absurd (.inr hhas) (h.1 inner hwithin)⟩
  · simp [hauthority]
  · have hnothing : ∀ inner, Within inner envelope.request.targets →
        ¬inner.validation.NewerThan envelope.schemaVersion := by
      rintro inner hwithin (⟨hfirst, hhas⟩ | hhas)
      · exact henvironment ⟨hfirst, any_targetHas_iff.mpr ⟨inner, hwithin, hhas⟩⟩
      · exact hcustody ⟨hversion.2, any_targetHas_iff.mpr ⟨inner, hwithin, hhas⟩⟩
    rw [Bool.not_eq_true] at hauthority
    rw [Except.ok.injEq, eq_comm]
    exact ⟨fun h => ⟨hnothing, hauthority, h⟩, fun h => h.2.2⟩

/-- A run of the second version may hold trusted values. -/
theorem second_version_keeps_trusted_values :
    let target : QueuedResolvedTarget Unit :=
      ⟨.other (), .local ⟨["SDK"], [("SDK", "/sdk")], none, ()⟩, ()⟩
    upgradeLegacyRequest ⟨2, .run [target] (), ()⟩ = .ok ⟨4, .run [target] (), ()⟩ := by
  refine (legacy_request_is_upgraded_iff _ _ (by decide)).mpr ⟨?_, rfl, rfl⟩
  rintro inner (hinner | ⟨htarget, hinner⟩) hnewer
  · obtain rfl := mem_singleton.mp hinner
    cases hnewer <;> simp_all [QueuedValidationSnapshot.hasIntegrationCleanup]
  · obtain rfl := mem_singleton.mp htarget
    cases hinner <;> rename_i hmem <;> cases hmem

end Shipyard.QueueRequest
