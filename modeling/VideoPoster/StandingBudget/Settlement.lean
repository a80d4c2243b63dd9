import VideoPoster.StandingBudget.Steps

/-!
# Settlement and its receipts
-/

namespace VideoPoster.StandingBudget
open Python Billing Tables Table Ledger Prod Except

variable {P : Policy} {allowed : Ledger → Op → Prop} {l l' : Ledger}

variable {actual : ℕ}

theorem units_millionths {cost : ℕ} (accepted : units (.millionths cost) = .ok actual) : actual = cost := by
  simp only [units, bind_eq_ok, require_eq_ok, exists_const, pure_eq_ok] at accepted
  obtain ⟨⟨-, -, whole⟩, bound, rfl⟩ := accepted
  rcases Decimal.millionths_mul cost with kept | large
  · rw [kept]
    simp
  · rw [← (Rat.den_eq_one_iff _).mp whole] at large
    have above : (10 ^ 21 : ℤ) ≤ ((Decimal.millionths cost).mul (.ofNat 1000000)).toRat.num := by
      exact_mod_cast large
    omega

variable {body : String} {receipt : SettlementReceipt}

theorem parseReceipt_cost (parsed : parseReceipt P body = .ok (receipt, actual)) :
    receipt.costTotalMicroUsd = actual := by
  simp only [parseReceipt, bind_eq_ok, require_eq_ok, exists_const, pure_eq_ok, Prod.mk.injEq] at parsed
  obtain ⟨dict, -, -, -, -, cost, -, amount, converted, _, -, _, -, _, -, _, -, _, -, -, -, rfl, rfl⟩ := parsed
  exact (units_millionths converted).symm

structure ReceiptRow.Describes (P : Policy) (row : ReceiptRow) (claim : Claim)
    (receipt : SettlementReceipt) : Prop where
  parsed : parseReceipt P row.body = .ok (receipt, row.actual)
  named : receipt.localRequestId = claim.requestId
  hashed : row.receiptSha256 = P.sha256 row.body
  provenance : row.provenance = receipt.provenance
  binds : receipt.binds claim
  assigned : receipt.providerRequestId ≠ unassigned
  fixture : receipt.authority = "TEST_NOT_AUTHORITY" → claim.authorityMode = .test
  amount : claim.actual = some row.actual

def Claim.Coherent (P : Policy) (claim : Claim) : Option ReceiptRow → Prop
  | none => (claim.state = .settled ↔ claim.actual ≠ none) ∧
      (claim.settlementMode = .falReadbackV2 → claim.actual = none)
  | some row => claim.settlementMode = .falReadbackV2 ∧ claim.state = .settled ∧
      ∃ receipt, row.Describes P claim receipt

structure Ledger.Coherent (P : Policy) (l : Ledger) : Prop where
  claims : ∀ claim ∈ l.claims, claim.Coherent P (l.receipts.find? claim.requestId)
  owned : ∀ row ∈ l.receipts, ∃ claim ∈ l.claims, claim.requestId = row.requestId

def settlesAssigned (P : Policy) (l : Ledger) : Op → Prop
  | .settleVerifiedReceipt _ body _ => ∀ receipt actual claim,
      parseReceipt P body = .ok (receipt, actual) →
      l.claims.find? receipt.localRequestId = some claim →
      receipt.providerRequestId = unassigned → claim.providerRequestId ≠ unassigned
  | _ => True

variable {context : Option ℕ} {new : Claim} {row : ReceiptRow}

variable {old : Claim}

theorem Claim.Update.of_receipted (update : Claim.Update context old new)
    (coherent : old.Coherent P (some row)) : ∃ pin, new = { old with generation := pin } := by
  obtain ⟨fal, -, receipt, describes⟩ := coherent
  cases update with
  | bound touchable free => exact absurd (describes.binds.2.1.symm.trans free) describes.assigned
  | marked touchable unsettled =>
    rw [describes.amount] at unsettled
    cases unsettled
  | settled legacy => exact absurd fal legacy
  | pinned generation => exact ⟨some generation, rfl⟩

variable {claim : Claim}

theorem Claim.Coherent.repinned {row : Option ReceiptRow} (coherent : claim.Coherent P row) (pin : Option ℕ) :
    { claim with generation := pin }.Coherent P row := by
  cases row with
  | none => exact coherent
  | some row =>
    obtain ⟨fal, settled, receipt, describes⟩ := coherent
    exact ⟨fal, settled, receipt, describes.parsed, describes.named, describes.hashed,
      describes.provenance, describes.binds, describes.assigned, describes.fixture,
      describes.amount⟩

theorem Claim.Update.coherent {row : Option ReceiptRow}
    (update : Claim.Update context old new) (coherent : old.Coherent P row) : new.Coherent P row := by
  cases row with
  | some row =>
    obtain ⟨pin, rfl⟩ := update.of_receipted coherent
    exact coherent.repinned pin
  | none =>
    cases update with
    | bound | pinned => exact coherent
    | marked touchable unsettled => simp [Claim.Coherent, Claim.repin, unsettled]
    | settled legacy => simp [Claim.Coherent, legacy]

theorem Ledger.Coherent.put (coherent : l.Coherent P) (kept : new.Coherent P (l.receipts.find? new.requestId)) :
    { l with claims := l.claims.put new }.Coherent P := by
  constructor
  · intro claim member
    rcases mem_put.mp member with rfl | ⟨old, -⟩
    · exact kept
    · exact coherent.claims claim old
  · intro row member
    obtain ⟨claim, claimMember, same⟩ := coherent.owned row member
    by_cases key : claim.requestId = new.requestId
    · exact ⟨new, mem_put.mpr (.inl rfl), key ▸ same⟩
    · exact ⟨claim, mem_put.mpr (.inr ⟨claimMember, key⟩), same⟩

theorem Ledger.Coherent.settle {claim : Claim}
    (coherent : l.Coherent P)
    (parsed : parseReceipt P body = .ok (receipt, actual))
    (found : l.claims.find? receipt.localRequestId = some claim)
    (fal : claim.settlementMode = .falReadbackV2) (binds : receipt.binds claim)
    (fixture : receipt.authority = "TEST_NOT_AUTHORITY" → claim.authorityMode = .test)
    (assigned : receipt.providerRequestId ≠ unassigned) (pin : Option ℕ) :
    Ledger.Coherent P
      { claims := l.claims.put ({ claim with state := .settled, actual := some actual }.repin pin)
        receipts := l.receipts.put
          ⟨receipt.localRequestId, P.sha256 body, actual, body, receipt.provenance⟩ } := by
  obtain ⟨-, named⟩ := find?_eq_some.mp found
  constructor
  · intro other member
    rcases mem_put.mp member with rfl | ⟨old, distinct⟩
    · simp only [Claim.repin, named, find?_put, if_pos]
      exact ⟨fal, rfl, receipt, parsed, rfl, rfl, rfl, binds, assigned, fixture, rfl⟩
    · have elsewhere : other.requestId ≠ receipt.localRequestId := named ▸ distinct
      simp only [find?_put, if_neg elsewhere]
      exact coherent.claims other old
  · intro row member
    rcases mem_put.mp member with rfl | ⟨old, distinct⟩
    · exact ⟨_, mem_put.mpr (.inl rfl), named⟩
    · obtain ⟨other, otherMember, same⟩ := coherent.owned row old
      refine ⟨other, mem_put.mpr (.inr ⟨otherMember, ?_⟩), same⟩
      exact fun equal => distinct ((same.symm.trans equal).trans named)

theorem Ledger.Coherent.step (coherent : l.Coherent P)
    (step : StandingBudget.Step P (settlesAssigned P) l l') : l'.Coherent P := by
  obtain ⟨op, meets, change⟩ := step.change
  cases change with
  | unchanged => exact coherent
  | inserted new absent thawed reserved unsettled =>
    have missing : l.receipts.find? new.requestId = none := by
      refine find?_eq_none.mpr fun row member same => ?_
      obtain ⟨claim, claimMember, key⟩ := coherent.owned row member
      exact find?_eq_none.mp absent claim claimMember (key.trans same)
    refine coherent.put ?_
    simp [missing, Claim.Coherent, reserved, unsettled]
  | updated old new found update =>
    refine coherent.put (update.requestId ▸ update.coherent ?_)
    exact coherent.claims old (find?_eq_some.mp found).1
  | receipted receipt actual claim touchable parsed found fal binds fixture missing =>
    refine coherent.settle parsed found fal binds fixture (fun free => ?_) _
    exact meets receipt actual claim parsed found free (binds.2.1.trans free)

theorem coherent_empty : empty.Coherent P := by
  constructor <;> rintro _ ⟨⟩

theorem coherent_reaches (coherent : l.Coherent P) (reaches : Reaches P (settlesAssigned P) l l') : l'.Coherent P := by
  induction reaches with
  | refl => exact coherent
  | tail _ step ih => exact ih.step step

structure Ledger.SettlementBound (P : Policy) (l : Ledger) : Prop where
  settled : ∀ claim ∈ l.claims, claim.state = .settled ↔ claim.actual ≠ none
  receipted : ∀ claim ∈ l.claims, claim.settlementMode = .falReadbackV2 →
    (claim.state = .settled ↔ ∃! row, row ∈ l.receipts ∧ row.requestId = claim.requestId)
  bound : ∀ claim ∈ l.claims, claim.settlementMode = .falReadbackV2 → ∀ row ∈ l.receipts,
    row.requestId = claim.requestId → ∃ receipt, parseReceipt P row.body = .ok (receipt, row.actual) ∧
      receipt.binds claim ∧ claim.actual = some receipt.costTotalMicroUsd ∧
      receipt.providerRequestId ≠ unassigned

theorem Ledger.Coherent.settlementBound (coherent : l.Coherent P) : l.SettlementBound P := by
  constructor
  · intro claim member
    have kept := coherent.claims claim member
    cases stored : l.receipts.find? claim.requestId with
    | none =>
      rw [stored] at kept
      exact kept.1
    | some row =>
      rw [stored] at kept
      obtain ⟨-, settled, receipt, describes⟩ := kept
      simp [settled, describes.amount]
  · intro claim member fal
    have kept := coherent.claims claim member
    cases stored : l.receipts.find? claim.requestId with
    | none =>
      rw [stored] at kept
      have open' : claim.state ≠ .settled := fun settled => kept.1.mp settled (kept.2 fal)
      refine ⟨fun settled => absurd settled open', ?_⟩
      rintro ⟨row, ⟨rowMember, same⟩, -⟩
      exact absurd same (find?_eq_none.mp stored row rowMember)
    | some row =>
      rw [stored] at kept
      obtain ⟨rowMember, same⟩ := find?_eq_some.mp stored
      refine ⟨fun _ => ⟨row, ⟨rowMember, same⟩, ?_⟩, fun _ => kept.2.1⟩
      rintro other ⟨otherMember, otherSame⟩
      exact eq_of_key otherMember rowMember (otherSame.trans same.symm)
  · intro claim member fal row rowMember same
    have kept := coherent.claims claim member
    rw [find?_eq_some.mpr ⟨rowMember, same⟩] at kept
    obtain ⟨-, -, receipt, describes⟩ := kept
    refine ⟨receipt, describes.parsed, describes.binds, ?_, describes.assigned⟩
    rw [describes.amount, parseReceipt_cost describes.parsed]

def Ledger.Holds (l : Ledger) (row : ReceiptRow) (claim : Claim) : Prop :=
  l.receipts.find? claim.requestId = some row ∧ l.claims.find? claim.requestId = some claim

theorem Ledger.Holds.step {row : ReceiptRow} {claim : Claim} (holds : l.Holds row claim) (coherent : l.Coherent P)
    (step : StandingBudget.Step P allowed l l') : ∃ pin, l'.Holds row { claim with generation := pin } := by
  obtain ⟨stored, found⟩ := holds
  obtain ⟨op, -, change⟩ := step.change
  cases change with
  | unchanged => exact ⟨claim.generation, stored, found⟩
  | inserted new absent =>
    refine ⟨claim.generation, stored, ?_⟩
    rw [find?_put_of_ne]
    · exact found
    · rintro same
      rw [← same, found] at absent
      cases absent
  | updated old new oldFound update =>
    by_cases same : claim.requestId = old.requestId
    · rw [← same, found] at oldFound
      obtain rfl := Option.some.inj oldFound
      have kept := coherent.claims claim (find?_eq_some.mp found).1
      rw [stored] at kept
      obtain ⟨pin, rfl⟩ := update.of_receipted kept
      exact ⟨pin, stored, find?_put_self _ _⟩
    · refine ⟨claim.generation, stored, ?_⟩
      rw [find?_put_of_ne _ (update.requestId ▸ same)]
      exact found
  | receipted receipt actual other touchable parsed otherFound fal binds fixture missing =>
    have distinct : claim.requestId ≠ receipt.localRequestId := by
      intro same
      rw [← same, stored] at missing
      cases missing
    obtain ⟨-, named⟩ := find?_eq_some.mp otherFound
    refine ⟨claim.generation, ?_, ?_⟩
    · refine (find?_put_of_ne l.receipts ?_).trans stored
      exact distinct
    · rw [find?_put_of_ne]
      · exact found
      · exact fun same => distinct (same.trans named)

theorem Ledger.Holds.reaches (holds : l.Holds row claim) (coherent : l.Coherent P)
    (reaches : Reaches P (settlesAssigned P) l l') : ∃ pin, l'.Holds row { claim with generation := pin } := by
  induction reaches with
  | refl => exact ⟨claim.generation, holds⟩
  | tail before step ih =>
    obtain ⟨_, held⟩ := ih
    exact held.step (coherent_reaches coherent before) step

theorem Ledger.Holds.replay (holds : l.Holds row claim) (coherent : l.Coherent P)
    (context generation : Option ℕ) : (l.step P (.settleVerifiedReceipt context row.body generation)).1 =
    l ∧ (ValidGeneration generation → generation = none ∨ context = generation → claim.generation =
    none ∨ generation ≠ none → (l.step P (.settleVerifiedReceipt context row.body generation)).2 = .ok claim) := by
  obtain ⟨stored, found⟩ := holds
  have kept := coherent.claims claim (find?_eq_some.mp found).1
  rw [stored] at kept
  obtain ⟨fal, settled, receipt, describes⟩ := kept
  have named := describes.named
  constructor
  · unfold Ledger.step
    split
    · rename_i after result applied
      obtain ⟨receipt', actual', row', parsed, -, -, -, -, -,
        ⟨_, -, -, -, -, -, -, same⟩ | ⟨missing, -⟩⟩ := settleVerifiedReceipt_ok applied
      · exact same
      · obtain ⟨rfl, rfl⟩ := Prod.mk.inj (ok.inj (describes.parsed.symm.trans parsed))
        rw [named, stored] at missing
        cases missing
    · rfl
  · intro valid context' pin
    have applied : settleVerifiedReceipt P context row.body generation l = .ok (l, claim) := by
      simp only [settleVerifiedReceipt, requireGeneration, denyContext, requirePin, bind_eq_ok,
        require_eq_ok, exists_const]
      refine ⟨valid, context', _, describes.parsed, ?_⟩
      simp only [named, found, stored, bind_eq_ok, require_eq_ok, exists_const, pure_eq_ok, and_true]
      exact ⟨pin, fal, describes.binds, describes.fixture,
        ⟨describes.hashed, trivial, trivial, describes.provenance⟩, describes.amount, settled⟩
    simp only [Ledger.step, Op.apply, applied]

theorem settle_holds {generation : Option ℕ} (settled : l.step P (.settleVerifiedReceipt context body generation)
    = (l', .ok claim)) : ∃ row, row.body = body ∧ l'.Holds row claim := by
  have applied : settleVerifiedReceipt P context body generation l = .ok (l', claim) := by
    unfold step at settled
    split at settled <;> simp_all [Op.apply]
  obtain ⟨receipt, actual, row, parsed, found, -, -, -, -,
    ⟨existing, stored, text, -, -, -, rfl, rfl⟩ | ⟨-, -, rfl, rfl⟩⟩ :=
    settleVerifiedReceipt_ok applied
  · obtain ⟨-, named⟩ := find?_eq_some.mp found
    exact ⟨existing, text, named ▸ stored, named ▸ found⟩
  · obtain ⟨-, named⟩ := find?_eq_some.mp found
    refine ⟨⟨receipt.localRequestId, P.sha256 body, actual, body, receipt.provenance⟩, rfl, ?_, ?_⟩
    · simp only [Claim.repin, named]
      exact find?_put_self l.receipts _
    · exact find?_put_self _ _

/-- In every run in which no receipt is settled against an unassigned claim, claims and receipts
agree, and a receipt that was accepted once can be replayed in every later state. -/
theorem settlement_bound_and_replayable (P : Policy)
    (l : Ledger) (reachable : Reaches P (settlesAssigned P) .empty l) : l.SettlementBound P ∧
    ∀ context body generation claim l₁, settlesAssigned P l (.settleVerifiedReceipt context body generation)
    → l.step P (.settleVerifiedReceipt context body generation) = (l₁, .ok claim) → ∀ l₂, Reaches P (settlesAssigned P)
    l₁ l₂ → ∃ pin, ∀ context' generation', (l₂.step P (.settleVerifiedReceipt context' body generation')).1 =
    l₂ ∧ (ValidGeneration generation' → generation' = none ∨ context' = generation' → pin = none ∨ generation' ≠ none →
    (l₂.step P (.settleVerifiedReceipt context' body generation')).2 = .ok { claim with generation := pin }) := by
  have coherent := coherent_reaches coherent_empty reachable
  refine ⟨coherent.settlementBound, ?_⟩
  intro context body generation claim l₁ meets settled l₂ later
  have coherent₁ : l₁.Coherent P := coherent.step ⟨_, meets, congrArg fst settled⟩
  obtain ⟨row, rfl, holds⟩ := settle_holds settled
  obtain ⟨pin, held⟩ := holds.reaches coherent₁ later
  exact ⟨pin, held.replay (coherent_reaches coherent₁ later)⟩

def assignedHistory : List Op :=
  [sampleReserve, .bindProviderRequestId none "request-1" "fal-1" none,
    .settleVerifiedReceipt none (sampleBody "fal-1") none]

theorem assignedHistory_settlement_bound : (empty.after samplePolicy assignedHistory).receipts.rows.length = 1 ∧
      (empty.after samplePolicy assignedHistory).SettlementBound samplePolicy := by
  refine ⟨by decide +kernel, (settlement_bound_and_replayable samplePolicy _ (reaches_after assignedHistory ?_)).1⟩
  intro op member l
  simp only [assignedHistory, List.mem_cons, List.not_mem_nil, or_false] at member
  rcases member with rfl | rfl | rfl
  · trivial
  · trivial
  · intro receipt actual claim parsed found free
    have known : parseReceipt samplePolicy (sampleBody "fal-1") =
      .ok (sampleReceipt "fal-1", 48000) := by decide +kernel
    obtain ⟨rfl, -⟩ := mk.inj (ok.inj (parsed.symm.trans known))
    exact absurd free (by decide)

def unassignedHistory : List Op :=
  [sampleReserve, .settleVerifiedReceipt none (sampleBody unassigned) none,
    .bindProviderRequestId none "request-1" "fal-1" none]

theorem unassignedHistory_not_settlement_bound :
    ∃ l, Reaches samplePolicy anyOp .empty l ∧ ¬ l.SettlementBound samplePolicy ∧
      (∃ row ∈ l.receipts, row.body = sampleBody unassigned) ∧
      (l.step samplePolicy (.settleVerifiedReceipt none (sampleBody unassigned) none)).2 =
        .error (.denied "receipt does not bind durable claim") := by
  have facts : (∃ claim ∈ (empty.after samplePolicy unassignedHistory).claims.rows,
      ∃ row ∈ (empty.after samplePolicy unassignedHistory).receipts.rows,
        claim.settlementMode = .falReadbackV2 ∧ row.requestId = claim.requestId ∧
        row.body = sampleBody unassigned) ∧
      ((empty.after samplePolicy unassignedHistory).step samplePolicy
        (.settleVerifiedReceipt none (sampleBody unassigned) none)).2 =
          .error (.denied "receipt does not bind durable claim") := by
    decide +kernel
  obtain ⟨⟨claim, member, row, rowMember, fal, same, text⟩, refused⟩ := facts
  refine ⟨empty.after samplePolicy unassignedHistory,
    reaches_after unassignedHistory fun _ _ _ => trivial, fun bound => ?_, ⟨row, rowMember, text⟩, refused⟩
  obtain ⟨receipt, parsed, -, -, assigned⟩ := bound.bound claim member fal row rowMember same
  have known : parseReceipt samplePolicy (sampleBody unassigned) =
    .ok (sampleReceipt unassigned, 48000) := by decide +kernel
  rw [text, known] at parsed
  obtain ⟨rfl, -⟩ := mk.inj (ok.inj parsed)
  exact assigned rfl

end VideoPoster.StandingBudget
