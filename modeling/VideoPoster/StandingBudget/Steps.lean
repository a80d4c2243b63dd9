import Mathlib.Logic.Relation
import VideoPoster.StandingBudget.Model

/-!
# What one ledger operation can do
-/

namespace VideoPoster.StandingBudget
open Python Billing Tables Prod

def Step (P : Policy) (allowed : Ledger → Op → Prop) (l l' : Ledger) : Prop :=
  ∃ op, allowed l op ∧ (l.step P op).1 = l'

abbrev Reaches (P : Policy) (allowed : Ledger → Op → Prop) : Ledger → Ledger → Prop :=
  Relation.ReflTransGen (Step P allowed)

def anyOp : Ledger → Op → Prop := fun _ _ => True

theorem reaches_after {P : Policy} {allowed : Ledger → Op → Prop} {l : Ledger} (ops : List Op)
    (meets : ∀ op ∈ ops, ∀ l, allowed l op) : Reaches P allowed l (l.after P ops) := by
  induction ops generalizing l with
  | nil => exact .refl
  | cons op rest ih =>
    refine .head ⟨op, meets op (by simp) l, rfl⟩ (ih fun other member => ?_)
    exact meets other (by simp [member])

variable {P : Policy} {l l' : Ledger} {result : Claim}

variable {context generation : Option ℕ}

theorem touchable_of_pin {pin : Option ℕ} (writer : generation = none ∨ context = generation)
    (guarded : pin = none ∨ generation ≠ none) : pin = none ∨ context ≠ none := by
  rcases guarded with free | given
  · exact .inl free
  · rcases writer with missing | rfl
    · exact absurd missing given
    · exact .inr given

theorem reserve_ok {month : Result String} {args : ReserveArgs} (applied : reserve P context month args l =
    .ok (l', result)) : (l.claims.find? args.requestId = some result ∧ l' = l) ∨ (l.claims.find? args.requestId =
    none ∧ l.frozen = false ∧ ∃ cap recorded, l.episodeTotal args.episodeId + cap ≤ P.episodeLimit ∧ l.monthTotal
    recorded + cap ≤ P.monthLimit ∧ (args.experiment = true → l.experimentTotal recorded + cap ≤ P.experimentLimit)
    ∧ result = args.toClaim cap recorded (args.resolvedMode P) ∧ l' = { l with claims := l.claims.put result }) := by
  simp only [reserve, requireGeneration, denyContext, bind_eq_ok, require_eq_ok, exists_const] at applied
  obtain ⟨-, -, -, -, -, -, -, -, cap, -, recorded, -, applied⟩ := applied
  split at applied
  · rename_i previous found
    simp only [bind_eq_ok, require_eq_ok, exists_const, pure_eq_ok, mk.injEq] at applied
    obtain ⟨-, rfl, rfl⟩ := applied
    exact .inl ⟨found, rfl⟩
  · rename_i absent
    simp only [bind_eq_ok, require_eq_ok, exists_const, pure_eq_ok, mk.injEq] at applied
    obtain ⟨thawed, episode, monthly, experiment, rfl, rfl⟩ := applied
    exact .inr ⟨absent, thawed, cap, recorded, episode, monthly, experiment, rfl, rfl⟩

section Requests
variable {requestId : String}

theorem bindProviderRequestId_ok {provider : String} (applied : bindProviderRequestId context requestId
    provider generation l = .ok (l', result)) : ∃ row, l.claims.find? requestId = some row ∧ row.settlementMode =
    .falReadbackV2 ∧ (row.generation = none ∨ context ≠ none) ∧ provider ≠ unassigned ∧ (row.providerRequestId =
    provider ∧ result = row ∧ l' = l ∨ row.providerRequestId = unassigned ∧ row.providerRequestId ≠ provider ∧ result =
    { row with providerRequestId := provider }.repin generation ∧ l' = { l with claims := l.claims.put result }) := by
  simp only [bindProviderRequestId, requireGeneration, denyContext, requirePin,
    bind_eq_ok, require_eq_ok, exists_const] at applied
  obtain ⟨⟨-, -, assigned, -⟩, -, writer, applied⟩ := applied
  split at applied
  · cases applied
  · rename_i row found
    simp only [bind_eq_ok, require_eq_ok, exists_const] at applied
    obtain ⟨bound, pin, applied⟩ := applied
    refine ⟨row, found, bound, touchable_of_pin writer pin, assigned, ?_⟩
    split at applied
    · rename_i same
      simp only [pure_eq_ok, mk.injEq] at applied
      exact .inl ⟨same, applied.2.symm, applied.1.symm⟩
    · rename_i different
      simp only [bind_eq_ok, require_eq_ok, exists_const, pure_eq_ok, mk.injEq] at applied
      obtain ⟨free, rfl, rfl⟩ := applied
      exact .inr ⟨free, different, rfl, rfl⟩

theorem markUnknown_ok (applied : markUnknown context requestId generation l = .ok (l', result))
    : ∃ row, l.claims.find? requestId = some row ∧ (row.generation = none ∨ context ≠ none) ∧ row.actual = none ∧
    result = { row with state := .unknown }.repin generation ∧ l' = { l with claims := l.claims.put result } := by
  simp only [markUnknown, requireGeneration, denyContext, requirePin, bind_eq_ok, require_eq_ok,
    exists_const] at applied
  obtain ⟨-, writer, applied⟩ := applied
  split at applied
  · cases applied
  · rename_i row found
    simp only [bind_eq_ok, require_eq_ok, exists_const, pure_eq_ok, mk.injEq] at applied
    obtain ⟨pin, unsettled, rfl, rfl⟩ := applied
    exact ⟨row, found, touchable_of_pin writer pin, unsettled, rfl, rfl⟩

theorem settle_ok {actualUsd : Decimal}
    (applied : settle requestId actualUsd l = .ok (l', result)) : ∃ row, l.claims.find? requestId =
    some row ∧ row.settlementMode ≠ .falReadbackV2 ∧ (result = row ∧ l' = l ∨ ∃ actual, row.actual = none ∧ result =
    { row with state := .settled, actual := some actual } ∧ l' = { l with claims := l.claims.put result }) := by
  simp only [settle, bind_eq_ok] at applied
  obtain ⟨actual, -, applied⟩ := applied
  split at applied
  · cases applied
  · rename_i row found
    simp only [bind_eq_ok, require_eq_ok, exists_const] at applied
    obtain ⟨legacy, applied⟩ := applied
    refine ⟨row, found, legacy, ?_⟩
    split at applied
    · simp only [bind_eq_ok, require_eq_ok, exists_const, pure_eq_ok, mk.injEq] at applied
      exact .inl ⟨applied.2.2.symm, applied.2.1.symm⟩
    · rename_i unsettled
      simp only [pure_eq_ok, mk.injEq] at applied
      obtain ⟨rfl, rfl⟩ := applied
      exact .inr ⟨actual, unsettled, rfl, rfl⟩

theorem settleVerifiedReceipt_ok {body : String}
    (applied : settleVerifiedReceipt P context body generation l = .ok (l', result)) :
    ∃ receipt actual row, parseReceipt P body = .ok (receipt, actual) ∧
      l.claims.find? receipt.localRequestId = some row ∧
      (row.generation = none ∨ context ≠ none) ∧
      row.settlementMode = .falReadbackV2 ∧ receipt.binds row ∧
      (receipt.authority = "TEST_NOT_AUTHORITY" → row.authorityMode = .test) ∧
      ((∃ existing, l.receipts.find? receipt.localRequestId = some existing ∧
          existing.body = body ∧ existing.actual = actual ∧ row.actual = some actual ∧
          row.state = .settled ∧ result = row ∧ l' = l) ∨
        (l.receipts.find? receipt.localRequestId = none ∧ row.actual = none ∧
          result = { row with state := .settled, actual := some actual }.repin generation ∧
          l' = { claims := l.claims.put result
                 receipts := l.receipts.put ⟨receipt.localRequestId, P.sha256 body, actual, body,
                   receipt.provenance⟩ })) := by
  simp only [settleVerifiedReceipt, requireGeneration, denyContext, requirePin, bind_eq_ok,
    require_eq_ok, exists_const] at applied
  obtain ⟨-, writer, ⟨receipt, actual⟩, parsed, applied⟩ := applied
  split at applied
  · cases applied
  · rename_i row found
    simp only [bind_eq_ok, require_eq_ok, exists_const] at applied
    obtain ⟨pin, bound, binds, fixture, applied⟩ := applied
    refine ⟨receipt, actual, row, parsed, found, touchable_of_pin writer pin, bound, binds, fixture, ?_⟩
    split at applied
    · rename_i existing stored
      simp only [bind_eq_ok, require_eq_ok, exists_const, pure_eq_ok, mk.injEq] at applied
      obtain ⟨⟨-, amount, text, -⟩, ⟨settled, state⟩, rfl, rfl⟩ := applied
      exact .inl ⟨existing, stored, text, amount, settled, state, rfl, rfl⟩
    · rename_i missing
      simp only [bind_eq_ok, require_eq_ok, exists_const, pure_eq_ok, mk.injEq] at applied
      obtain ⟨unsettled, -, rfl, rfl⟩ := applied
      exact .inr ⟨missing, unsettled, rfl, rfl⟩

theorem setBillingSnapshotGeneration_ok {generation : ℕ} (applied : setBillingSnapshotGeneration context requestId
    generation l = .ok (l', result)) : ∃ row, l.claims.find? requestId = some row ∧ context = some generation ∧
    result = { row with generation := some generation } ∧ l' = { l with claims := l.claims.put result } := by
  simp only [setBillingSnapshotGeneration, requireGeneration, denyContext,
    bind_eq_ok, require_eq_ok, exists_const] at applied
  obtain ⟨-, writer, applied⟩ := applied
  split at applied
  · cases applied
  · rename_i row found
    simp only [pure_eq_ok, mk.injEq] at applied
    obtain ⟨rfl, rfl⟩ := applied
    exact ⟨row, found, by simpa using writer, rfl, rfl⟩

theorem claim_ok (applied : claim requestId l = .ok (l', result)) :
    l.claims.find? requestId = some result ∧ l' = l := by
  simp only [claim, bind_eq_ok, require_eq_ok, exists_const] at applied
  obtain ⟨-, applied⟩ := applied
  split at applied
  · cases applied
  · rename_i row found
    simp only [pure_eq_ok, mk.injEq] at applied
    obtain ⟨rfl, rfl⟩ := applied
    exact ⟨found, rfl⟩

end Requests

/-- The ways in which an existing claim changes without a receipt, by the writer context. -/
inductive Claim.Update (context : Option ℕ) (old : Claim) : Claim → Prop
  | bound (touchable : old.generation = none ∨ context ≠ none)
      (free : old.providerRequestId = unassigned) (provider : String) (generation : Option ℕ) :
      Update context old ({ old with providerRequestId := provider }.repin generation)
  | marked (touchable : old.generation = none ∨ context ≠ none) (unsettled : old.actual = none)
      (generation : Option ℕ) : Update context old ({ old with state := .unknown }.repin generation)
  | settled (legacy : old.settlementMode ≠ .falReadbackV2) (unsettled : old.actual = none)
      (actual : ℕ) : Update context old { old with state := .settled, actual := some actual }
  | pinned (generation : ℕ) (writer : context = some generation) :
      Update context old { old with generation := some generation }

theorem Claim.Update.requestId {context : Option ℕ} {old new : Claim} (update : Claim.Update context old new) :
    new.requestId = old.requestId := by
  cases update <;> rfl

inductive Change (P : Policy) (l : Ledger) : Op → Ledger → Prop
  | unchanged {op : Op} : Change P l op l
  | inserted {op : Op} (new : Claim) (absent : l.claims.find? new.requestId = none)
      (thawed : l.frozen = false) (reserved : new.state = .reserved) (unsettled : new.actual = none)
      (episode : l.episodeTotal new.episodeId + new.cap ≤ P.episodeLimit)
      (monthly : l.monthTotal new.month + new.cap ≤ P.monthLimit)
      (experiment : new.experiment = true → l.experimentTotal new.month + new.cap ≤ P.experimentLimit) :
      Change P l op { l with claims := l.claims.put new }
  | updated {op : Op} (old new : Claim) (found : l.claims.find? old.requestId = some old)
      (update : Claim.Update op.context old new) : Change P l op { l with claims := l.claims.put new }
  | receipted {context generation : Option ℕ} {body : String} (receipt : SettlementReceipt)
      (actual : ℕ) (row : Claim) (touchable : row.generation = none ∨ context ≠ none)
      (parsed : parseReceipt P body = .ok (receipt, actual))
      (found : l.claims.find? receipt.localRequestId = some row)
      (fal : row.settlementMode = .falReadbackV2) (binds : receipt.binds row)
      (fixture : receipt.authority = "TEST_NOT_AUTHORITY" → row.authorityMode = .test)
      (missing : l.receipts.find? receipt.localRequestId = none) (unsettled : row.actual = none) :
      Change P l (.settleVerifiedReceipt context body generation)
        { claims := l.claims.put ({ row with state := .settled, actual := some actual }.repin generation)
          receipts := l.receipts.put
            ⟨receipt.localRequestId, P.sha256 body, actual, body, receipt.provenance⟩ }

variable {op : Op}

private theorem updated_of_find {requestId : String} {old new : Claim} (found : l.claims.find? requestId = some old)
    (update : Claim.Update op.context old new) : Change P l op { l with claims := l.claims.put new } := by
  obtain ⟨-, rfl⟩ := Table.find?_eq_some.mp found
  exact .updated old new found update

theorem apply_change (applied : op.apply P l = .ok (l', result)) : Change P l op l' := by
  cases op with
  | reserve context month args =>
    rcases reserve_ok applied with ⟨-, rfl⟩ | ⟨absent, thawed, cap, recorded, episode, monthly, experiment, rfl, rfl⟩
    · exact .unchanged
    · exact .inserted _ absent thawed rfl rfl episode monthly experiment
  | bindProviderRequestId context requestId provider generation =>
    obtain ⟨row, found, -, touchable, -, ⟨-, -, rfl⟩ | ⟨free, -, rfl, rfl⟩⟩ :=
      bindProviderRequestId_ok applied
    · exact .unchanged
    · exact updated_of_find found (.bound touchable free provider generation)
  | markUnknown context requestId generation =>
    obtain ⟨row, found, touchable, unsettled, rfl, rfl⟩ := markUnknown_ok applied
    exact updated_of_find found (.marked touchable unsettled generation)
  | settle requestId actualUsd =>
    obtain ⟨row, found, legacy, ⟨-, rfl⟩ | ⟨actual, unsettled, rfl, rfl⟩⟩ := settle_ok applied
    · exact .unchanged
    · exact updated_of_find found (.settled legacy unsettled actual)
  | settleVerifiedReceipt context body generation =>
    obtain ⟨receipt, actual, row, parsed, found, touchable, fal, binds, fixture,
      ⟨_, -, -, -, -, -, -, rfl⟩ | ⟨missing, unsettled, rfl, rfl⟩⟩ :=
      settleVerifiedReceipt_ok applied
    · exact .unchanged
    · exact .receipted receipt actual row touchable parsed found fal binds fixture missing unsettled
  | setBillingSnapshotGeneration context requestId generation =>
    obtain ⟨row, found, writer, rfl, rfl⟩ := setBillingSnapshotGeneration_ok applied
    exact updated_of_find found (.pinned generation writer)
  | claim requestId =>
    obtain ⟨-, rfl⟩ := claim_ok applied
    exact .unchanged

theorem step_change (stepped : (l.step P op).1 = l') : Change P l op l' := by
  rw [← stepped]
  unfold Ledger.step
  cases applied : op.apply P l with
  | error e => exact .unchanged
  | ok outcome => exact apply_change applied

theorem Step.change {allowed : Ledger → Op → Prop} (step : Step P allowed l l') :
    ∃ op, allowed l op ∧ Change P l op l' := by
  obtain ⟨op, meets, stepped⟩ := step
  exact ⟨op, meets, step_change stepped⟩

structure Claim.SameBinding (new old : Claim) : Prop where
  generation : new.generation = old.generation
  requestId : new.requestId = old.requestId
  provider : new.provider = old.provider
  authScope : new.authScope = old.authScope
  providerRequestId : new.providerRequestId = old.providerRequestId

theorem Claim.SameBinding.refl (claim : Claim) : claim.SameBinding claim :=
  ⟨rfl, rfl, rfl, rfl, rfl⟩

theorem Claim.SameBinding.trans {a b c : Claim} (first : b.SameBinding a)
    (second : c.SameBinding b) : c.SameBinding a :=
  ⟨second.generation.trans first.generation, second.requestId.trans first.requestId,
    second.provider.trans first.provider, second.authScope.trans first.authScope,
    second.providerRequestId.trans first.providerRequestId⟩

theorem Claim.Update.sameBinding {old new : Claim} (update : Claim.Update context old new) (outside : context = none)
    (pinned : old.generation ≠ none) : new.SameBinding old := by
  subst outside
  cases update with
  | bound touchable | marked touchable => simp [pinned] at touchable
  | settled => exact ⟨rfl, rfl, rfl, rfl, rfl⟩
  | pinned generation writer => cases writer

variable {claim : Claim}

theorem Change.pinned {requestId : String}
    (change : Change P l op l') (outside : op.context = none) (found : l.claims.find? requestId = some claim)
    (pinned : claim.generation ≠ none) : ∃ later, l'.claims.find? requestId = some later ∧ later.SameBinding claim := by
  cases change with
  | unchanged => exact ⟨claim, found, .refl claim⟩
  | inserted new absent =>
    refine ⟨claim, ?_, .refl claim⟩
    rw [Table.find?_put_of_ne]
    · exact found
    · rintro rfl
      rw [found] at absent
      cases absent
  | updated old new oldFound update =>
    by_cases same : requestId = new.requestId
    · have key : requestId = old.requestId := same.trans update.requestId
      rw [← key, found] at oldFound
      obtain rfl := Option.some.inj oldFound
      exact ⟨new, same ▸ Table.find?_put_self _ _, update.sameBinding outside pinned⟩
    · exact ⟨claim, (Table.find?_put_of_ne _ same).trans found, .refl claim⟩
  | receipted receipt actual row touchable parsed rowFound =>
    obtain ⟨-, named⟩ := Table.find?_eq_some.mp rowFound
    by_cases same : requestId = receipt.localRequestId
    · rw [same, rowFound] at found
      obtain rfl := Option.some.inj found
      have free := touchable.resolve_right (not_not.mpr outside)
      exact absurd free pinned
    · refine ⟨claim, ?_, .refl claim⟩
      rw [Table.find?_put_of_ne]
      · exact found
      · exact fun equal => same (equal.trans named)

def Op.pin : Op → Option ℕ
  | .reserve _ _ args => args.generation
  | .bindProviderRequestId _ _ _ generation => generation
  | .markUnknown _ _ generation => generation
  | .settleVerifiedReceipt _ _ generation => generation
  | .setBillingSnapshotGeneration _ _ generation => some generation
  | .settle _ _ => none
  | .claim _ => none

theorem pin_of_apply (applied : op.apply P l = .ok (l', result)) : op.pin = none ∨ op.context = op.pin := by
  cases op with
  | reserve | bindProviderRequestId | markUnknown | settleVerifiedReceipt
  | setBillingSnapshotGeneration =>
    simp only [Op.apply, reserve, bindProviderRequestId, markUnknown, settleVerifiedReceipt,
      setBillingSnapshotGeneration, requireGeneration, denyContext, bind_eq_ok, require_eq_ok,
      exists_const] at applied
    simp only [Op.pin, Op.context]
    tauto
  | settle | claim => exact .inl rfl

theorem generation_of_apply (applied : op.apply P l = .ok (l', result)) (member : claim ∈ l'.claims) :
    op.pin = claim.generation ∨ ∃ old ∈ l.claims, old.generation = claim.generation := by
  have replaced {requestId : String} {row new : Claim} (found : l.claims.find? requestId = some row)
      (pin : op.pin = new.generation ∨ row.generation = new.generation)
      (put : claim ∈ l.claims.put new) :
      op.pin = claim.generation ∨ ∃ old ∈ l.claims, old.generation = claim.generation := by
    rcases Table.mem_put.mp put with rfl | ⟨old, -⟩
    · exact pin.imp_right fun same => ⟨row, (Table.find?_eq_some.mp found).1, same⟩
    · exact .inr ⟨claim, old, rfl⟩
  have repinned (row : Claim) (generation : Option ℕ) : generation = (row.repin generation).generation ∨
        row.generation = (row.repin generation).generation := by
    cases generation with
    | none => exact .inr rfl
    | some g => exact .inl rfl
  cases op with
  | reserve context month args =>
    rcases reserve_ok applied with ⟨-, rfl⟩ | ⟨-, -, cap, recorded, -, -, -, rfl, rfl⟩
    · exact .inr ⟨claim, member, rfl⟩
    · rcases Table.mem_put.mp member with rfl | ⟨old, -⟩
      · exact .inl rfl
      · exact .inr ⟨claim, old, rfl⟩
  | bindProviderRequestId context requestId provider generation =>
    obtain ⟨row, found, -, -, -, ⟨-, -, rfl⟩ | ⟨-, -, rfl, rfl⟩⟩ := bindProviderRequestId_ok applied
    · exact .inr ⟨claim, member, rfl⟩
    · exact replaced found (repinned { row with providerRequestId := provider } generation) member
  | markUnknown context requestId generation =>
    obtain ⟨row, found, -, -, rfl, rfl⟩ := markUnknown_ok applied
    exact replaced found (repinned { row with state := .unknown } generation) member
  | settle requestId actualUsd =>
    obtain ⟨row, found, -, ⟨-, rfl⟩ | ⟨actual, -, rfl, rfl⟩⟩ := settle_ok applied
    · exact .inr ⟨claim, member, rfl⟩
    · have kept : row.generation = { row with state := .settled, actual := some actual }.generation := rfl
      exact replaced found (.inr kept) member
  | settleVerifiedReceipt context body generation =>
    obtain ⟨receipt, actual, row, -, found, -, -, -, -,
      ⟨_, -, -, -, -, -, -, rfl⟩ | ⟨-, -, rfl, rfl⟩⟩ := settleVerifiedReceipt_ok applied
    · exact .inr ⟨claim, member, rfl⟩
    · exact replaced found
        (repinned { row with state := .settled, actual := some actual } generation) member
  | setBillingSnapshotGeneration context requestId generation =>
    obtain ⟨row, found, -, rfl, rfl⟩ := setBillingSnapshotGeneration_ok applied
    exact replaced found (.inl rfl) member
  | claim requestId =>
    obtain ⟨-, rfl⟩ := claim_ok applied
    exact .inr ⟨claim, member, rfl⟩

theorem generation_of_step (stepped : (l.step P op).1 = l') {generation : ℕ}
    (member : claim ∈ l'.claims) (pinned : claim.generation = some generation) :
    op.context = some generation ∨ ∃ old ∈ l.claims, old.generation = some generation := by
  rw [← stepped] at member
  unfold Ledger.step at member
  cases applied : op.apply P l with
  | error e =>
    rw [applied] at member
    exact .inr ⟨claim, member, pinned⟩
  | ok outcome =>
    rw [applied] at member
    rw [← pinned]
    refine (generation_of_apply applied member).imp_left fun pin => ?_
    have given : op.pin ≠ none := by simp [pin, pinned]
    exact ((pin_of_apply applied).resolve_left given).trans pin

end VideoPoster.StandingBudget
