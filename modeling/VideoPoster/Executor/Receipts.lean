import VideoPoster.Executor.RunConduct

/-!
# Finished receipts
-/

namespace VideoPoster.Executor
open Python Billing Tables Interleaving Row Option

variable {D : Deployment} {scope : Scope} {s s' : Shared (machine D)} {pid : ℕ} {action : Act}
  {response : action.Res} {requestId : String}

def Row.KeepsReceipt (new old : Row) : Prop :=
  new = { old with
    review := new.review
    generation := new.generation
    settlementBinding := new.settlementBinding
    providerId := new.providerId }

theorem Row.KeepsReceipt.refl (row : Row) : row.KeepsReceipt row := rfl

theorem Row.KeepsReceipt.trans {a b c : Row} (first : b.KeepsReceipt a) (second : c.KeepsReceipt b) :
    c.KeepsReceipt a := by
  rw [Row.KeepsReceipt, first] at second
  exact second

theorem Row.KeepsReceipt.status {new old : Row} (keeps : new.KeepsReceipt old) : new.status = old.status := by
  rw [keeps]

def Update.blind : Update → Bool
  | .prepared => true
  | .partialPath _ => true
  | _ => false

/-- A complete row is not marked as prepared, gets no partial path, and gets no provider id if it has
none. -/
def sparesReceipts (w : World) (e : Event actions) : Prop :=
  (∀ change ∈ e.action.changed, ∀ row ∈ w.jobs.find? change.1, row.status = .complete → change.2.blind = false) ∧
  ∀ requestId ∈ e.action.bound, ∀ row ∈ w.jobs.find? requestId,
    row.status = .complete → ¬ row.Unbound

instance (w : World) (e : Event actions) : Decidable (sparesReceipts w e) :=
  inferInstanceAs (Decidable (_ ∧ _))

def CalledToAttach (pid : ℕ) (s : Shared (machine D)) : Prop :=
  ∃ call, call.Attaches ∧ Seen (By pid (calls call)) s.trace

theorem RowUpdate.keepsReceipt {old new : Row} (update : RowUpdate D action old new)
    (granted : Granted D scope pid s action) (target : action.target D = some requestId)
    (found : s.world.jobs.find? requestId = some old) (complete : old.status = .complete) (spares :
    sparesReceipts s.world ⟨pid, action, response⟩) (attaches : ¬ CalledToAttach pid s) : new.KeepsReceipt old := by
  have inactive : ¬ Active s requestId := fun active => (active old found).1 complete
  cases update with
  | @changed E context given requestId update row guarded =>
    cases target
    have sighted := spares.1 _ rfl old found complete
    cases update with
    | prepared | partialPath => cases sighted
    | submitting | overrun | complete => exact absurd granted.2.1 inactive
    | cacheHit | evidence => exact absurd granted.2 inactive
    | cacheKey => exact absurd complete (granted.2 old found)
    | finalAdmissionMarker => exact absurd granted attaches
  | bound pin writer free unknown =>
    cases target
    exact absurd ⟨free, unknown⟩ (spares.2 _ rfl old found complete)
  | admitted prepared => cases complete.symm.trans prepared
  | pinned | reviewed => rfl

def ReceiptKept (requestId : String) (receipt : Row) (jobs : Jobs) : Prop :=
  ∃ row, jobs.find? requestId = some row ∧ row.status = .complete ∧ row.KeepsReceipt receipt

theorem ReceiptKept.performs {receipt : Row} (granted : Granted D scope pid s action) (spares : sparesReceipts
    s.world ⟨pid, action, response⟩) (attaches : ¬ CalledToAttach pid s) (performs : Performs pid action response s s')
    (kept : ReceiptKept requestId receipt s.world.jobs) : ReceiptKept requestId receipt s'.world.jobs := by
  obtain ⟨row, found, complete, keeps⟩ := kept
  obtain ⟨new, newFound, rfl | ⟨targeted, update⟩⟩ := (performs_jobs performs).found found
  · exact ⟨_, newFound, complete, keeps⟩
  · have step := update.keepsReceipt granted targeted found complete spares attaches
    exact ⟨new, newFound, step.status.trans complete, keeps.trans step⟩

def receiptCalls : Set Call := { call | ¬ call.Attaches }

variable {b c : Config (machine D) Error}

/-- A complete row stays complete and stays the same receipt, in every run whose steps spare it. -/
theorem complete_receipt_stays (reaches : Reaches (callsIn D receiptCalls) anyStep (freshRoot D) b)
    (later : Reaches (callsIn D receiptCalls) sparesReceipts b c)
    {row : Row} (found : b.world.jobs.find? requestId = some row) (complete : row.status = .complete) :
    ∃ row', c.world.jobs.find? requestId = some row' ∧ row'.status = .complete ∧ row'.KeepsReceipt row := by
  have admits : (discipline D fun _ => receiptCalls).Admits (callsIn D receiptCalls) :=
    discipline_admits fun _ => subset_rfl
  refine Protocol.Sound.invariant (K := fun s : Shared (machine D) => ReceiptKept requestId row s.world.jobs) admits
    (sound_freshRoot.reaches admits reaches) ?_ (fun _ _ => id)
    ⟨row, found, complete, .refl row⟩ later
  intro pid action response s s' inv kept granted spares performs
  have granted : Granted D (fun _ => receiptCalls) pid s action := granted
  refine ReceiptKept.performs granted spares ?_ performs kept
  rintro ⟨call, attaches, called⟩
  exact inv.inScope pid call called attaches

def sampleCompleted : List Turn :=
  [⟨.run sampleRun, sampleOracle none (sampleProvider 1), 16, false⟩]

def sampleRow (c : Config (machine (sampleDeployment 6)) Error) : Option Row :=
  c.world.jobs.find? sampleFirstId

theorem lateCheckpoint_overwrites_receipt : ∃ b c, Reaches (callsIn (sampleDeployment 6) receiptCalls)
    anyStep (freshRoot (sampleDeployment 6)) b ∧ Reaches (callsIn (sampleDeployment 6) receiptCalls)
    anyStep b c ∧ (sampleRow b).map status = some .complete ∧ (sampleRow c).map status = some .submitted := by
  have passed : (after (sampleDeployment 6) anyStep (freshRoot _) sampleCompleted).any (fun b =>
      decide ((sampleRow b).map status = some .complete) &&
        (after (sampleDeployment 6) anyStep b [⟨.checkpointProviderBinding sampleFirstId "fal-1" "",
          sampleOracle none (sampleProvider 1), 8, false⟩]).any
          fun c => decide ((sampleRow c).map status = some .submitted)) = true := by
    decide +kernel
  obtain ⟨b, reached, holds⟩ := exists_reaches_of_after _ anyStep receiptCalls
    (by simp [receiptCalls, Call.Attaches, sampleCompleted]) passed
  simp only [Bool.and_eq_true, decide_eq_true_eq] at holds
  obtain ⟨c, later, submitted⟩ := exists_reaches_of_after _ anyStep receiptCalls
    (by simp [receiptCalls, Call.Attaches]) holds.2
  exact ⟨b, c, reached, later, holds.1, of_decide_eq_true submitted⟩

theorem approval_keeps_receipt :
    ∃ b c, Reaches (callsIn (sampleDeployment 6) receiptCalls) anyStep (freshRoot (sampleDeployment 6))
    b ∧ Reaches (callsIn (sampleDeployment 6) receiptCalls) sparesReceipts b c ∧ ∃ row row', sampleRow b =
    some row ∧ sampleRow c = some row' ∧ row'.qa = some true ∧ row'.status = .complete ∧ row'.KeepsReceipt row := by
  have passed : (after (sampleDeployment 6) anyStep (freshRoot _) sampleCompleted).any (fun b =>
      decide ((sampleRow b).map status = some .complete) &&
        (after (sampleDeployment 6) sparesReceipts b
          [⟨.qa (sampleReview sampleFirstId true), sampleOracle none (sampleProvider 1), 2, false⟩]).any
          fun c => decide ((sampleRow c).map qa = some (some true))) = true := by
    decide +kernel
  obtain ⟨b, reached, holds⟩ := exists_reaches_of_after _ anyStep receiptCalls
    (by simp [receiptCalls, Call.Attaches, sampleCompleted]) passed
  simp only [Bool.and_eq_true, decide_eq_true_eq] at holds
  obtain ⟨c, later, approved⟩ := exists_reaches_of_after _ sparesReceipts receiptCalls
    (by simp [receiptCalls, Call.Attaches]) holds.2
  obtain ⟨row, found, complete⟩ := map_eq_some_iff.mp holds.1
  obtain ⟨row', found', stays⟩ := complete_receipt_stays reached later found complete
  obtain ⟨_, same, isApproved⟩ := map_eq_some_iff.mp (of_decide_eq_true approved)
  obtain rfl := some.inj (same.symm.trans found')
  exact ⟨b, c, reached, later, row, _, found, found', isApproved, stays⟩

end VideoPoster.Executor
