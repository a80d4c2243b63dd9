import VideoPoster.Harness.Runs

/-!
# The gates of a revision
-/

namespace VideoPoster.Harness
open Python Billing Interleaving Tables Control List World Option Step Kind Bool

def Status.rank : Status → ℕ
  | waitingPlanApproval => 0
  | ready => 1
  | waitingVisualFreezeApproval => 2
  | readyRender => 3
  | waitingThumbnailApproval => 4
  | readyVideoDelivery => 5
  | waitingVideoApproval => 6
  | waitingPublicationAuthorization => 7
  | readyForPublication => 8
  | published => 9

def Kind.level : Kind → ℕ
  | visualFreeze => 3
  | thumbnail => 5
  | video => 7

theorem Kind.rank_gate (kind : Kind) : kind.gate.rank + 1 = kind.level := by cases kind <;> rfl

theorem Kind.rank_approved (kind : Kind) : kind.approved.rank = kind.level := by cases kind <;> rfl

structure Control.Ordered (control : Control) : Prop where
  plan : control.planApproval.isSome = true ↔ 1 ≤ control.status.rank
  planBound : ∀ approval ∈ control.planApproval, approval.planHash = control.planHash
  media : ∀ kind, (control.approvals.get kind).isSome = true ↔ kind.level ≤ control.status.rank
  bound : 8 ≤ control.status.rank → control.AllApproved
  delivered : ∀ approval ∈ control.approvals.get .visualFreeze, ∃ receipt intent,
    control.stage? (.telegram .visualFreeze) = some receipt ∧ receipt.intent = some intent ∧
      intent.sha256 = approval.sha256
  waiting : control.status = .waitingVisualFreezeApproval → ∃ artifact receipt intent,
    control.artifacts.get .visualFreeze = some artifact ∧
    control.stage? (.telegram .visualFreeze) = some receipt ∧ receipt.intent = some intent ∧
    intent.sha256 = artifact.sha256

def World.Ordered (w : World) : Prop := ∀ control, w.control = some control → control.Ordered

def World.Late (w : World) : Prop := ∃ control, w.control = some control ∧ 8 ≤ control.status.rank

theorem ordered_waiting (plan : Plan) (planHash : Hash) (history : List Superseded) :
    (waiting plan planHash history).Ordered where
  plan := by simp [waiting, Status.rank]
  planBound := by simp [waiting]
  media kind := by cases kind <;> simp [waiting, Status.rank, level]
  bound late := absurd late (show ¬ 8 ≤ 0 by decide)
  delivered := by simp [waiting]
  waiting same := by cases same

variable {L : Libraries} {control control' : Control} {w w' : World}

/-! ## One move -/

theorem Status.rank_of_going {status : Status} (going : status.waits = false) (early : status.rank < 8) :
    status = .ready ∨ status = .readyRender ∨ status = .readyVideoDelivery := by
  cases status with
  | ready => exact .inl rfl
  | readyRender => exact .inr (.inl rfl)
  | readyVideoDelivery => exact .inr (.inr rfl)
  | readyForPublication => exact absurd early (by decide)
  | published => exact absurd early (by decide)
  | _ => cases going

variable {receipt : StageReceipt}

theorem Control.Ordered.withStage {name : StageName} (ordered : control.Ordered)
    (other : name ≠ .telegram .visualFreeze) : (control.withStage name receipt).Ordered := by
  have same : (control.withStage name receipt).stage? (.telegram .visualFreeze) =
      control.stage? (.telegram .visualFreeze) := by
    rw [stage?_withStage, if_neg (Ne.symm other)]
  refine ⟨ordered.plan, ordered.planBound, ordered.media, ordered.bound, fun approval decided => ?_, fun status => ?_⟩
  · rw [same]
    exact ordered.delivered approval decided
  · rw [same]
    exact ordered.waiting status

theorem Control.Ordered.freeze {artifacts : PerKind Identity} (ordered : control.Ordered) (active : control.Active)
    (early : control.status.rank < 8) : ({ control with artifacts := artifacts } : Control).Ordered := by
  refine ⟨ordered.plan, ordered.planBound, ordered.media, fun late => absurd early (not_lt.mpr late), ordered.delivered,
    fun same => ?_⟩
  have waits := active.going
  rw [show control.status = .waitingVisualFreezeApproval from same] at waits
  cases waits

theorem telegram_ne_of_production {name : StageName} (production : name ∈ productionStages) (kind : Kind) :
    name ≠ .telegram kind := by
  rintro rfl
  cases kind <;> exact absurd production (by decide)

variable {artifact : Identity}

theorem Control.Ordered.unapproved (ordered : control.Ordered)
    (ready : control.Ready artifact .visualFreeze) (found : control.stage? (.telegram .visualFreeze) = some receipt)
    (intent : receipt.intent = some (deliveryIntent control .visualFreeze artifact)) : control.status.rank < 3 := by
  by_contra approved
  have decided := (ordered.media .visualFreeze).mpr (not_lt.mp approved)
  obtain ⟨approval, known⟩ := isSome_iff_exists.mp decided
  obtain ⟨other, sentIntent, found', sent, same⟩ := ordered.delivered approval known
  cases found.symm.trans found'
  cases intent.symm.trans sent
  apply ready.2
  rw [show control.approvals.visualFreeze = some approval from known, map_some, ← same]
  rfl

variable {kind : Kind}

theorem Control.Ordered.before_gate (ordered : control.Ordered) (active : control.Active) (early : control.status.rank
    < 8) (ready : control.Ready artifact kind) (found : control.stage? (.telegram kind) = some receipt) (intent :
    receipt.intent = some (deliveryIntent control kind artifact)) : control.status.rank + 1 = kind.gate.rank := by
  have going := Status.rank_of_going active.going early
  cases kind with
  | visualFreeze =>
    have low := ordered.unapproved ready found intent
    rcases going with same | same | same <;> rw [same] at low ⊢
    · rfl
    · exact absurd low (by decide)
    · exact absurd low (by decide)
  | thumbnail =>
    have decided := (ordered.media .visualFreeze).mp ready.2.2
    rcases going with same | same | same
    · rw [same] at decided
      exact absurd decided (by decide)
    · rw [same]
      rfl
    · exact absurd same ready.1
  | video =>
    rw [ready.1]
    rfl

theorem Kind.level_gate (kind other : Kind) : other.level ≤ kind.gate.rank ↔ other.level ≤ kind.gate.rank - 1 := by
  cases kind <;> cases other <;> decide

theorem Control.Ordered.gate {after : StageReceipt} (ordered : control.Ordered) (active : control.Active)
    (early : control.status.rank < 8) (frozen : control.artifacts.get kind = some artifact) (ready :
    control.Ready artifact kind) (found : control.stage? (.telegram kind) = some receipt) (intent : receipt.intent =
    some (deliveryIntent control kind artifact)) (same : after.intent = some (deliveryIntent control kind artifact))
    : ({ control.withStage (.telegram kind) after with status := kind.gate } : Control).Ordered := by
  have rank := ordered.before_gate active early ready found intent
  have stage (other : StageName) (different : other ≠ .telegram kind) :
      (control.withStage (.telegram kind) after).stage? other = control.stage? other := by
    rw [stage?_withStage, if_neg different]
  refine ⟨?_, ordered.planBound, fun other => ?_, fun late => ?_, fun approval decided => ?_, fun waiting => ?_⟩
  · refine ordered.plan.trans ?_
    show 1 ≤ control.status.rank ↔ 1 ≤ kind.gate.rank
    have low := ordered.plan.mp (by
      obtain ⟨approval, there, -⟩ := active.approved
      rw [mem_def.mp there]
      rfl)
    exact ⟨fun _ => by omega, fun _ => low⟩
  · refine (ordered.media other).trans ?_
    show other.level ≤ control.status.rank ↔ other.level ≤ kind.gate.rank
    rw [kind.level_gate other, ← rank, Nat.add_sub_cancel]
  · have late : 8 ≤ kind.gate.rank := late
    cases kind <;> exact absurd late (by decide)
  · obtain ⟨other, sent, there, sentIntent, hash⟩ := ordered.delivered approval decided
    by_cases sheet : kind = .visualFreeze
    · subst sheet
      cases found.symm.trans there
      cases intent.symm.trans sentIntent
      exact ⟨after, _, stage?_withStage_self _ _ _, same, hash⟩
    · refine ⟨other, sent, (stage _ fun equal => sheet ?_).trans there, sentIntent, hash⟩
      exact (StageName.telegram.inj equal).symm
  · have gate : kind.gate = .waitingVisualFreezeApproval := waiting
    cases kind with
    | visualFreeze =>
      exact ⟨artifact, after, _, frozen, stage?_withStage_self _ _ _, same, rfl⟩
    | thumbnail => cases gate
    | video => cases gate

theorem Control.Ordered.decide {kind : Kind} {artifact : Identity} {reviewer : String} (ordered : control.Ordered)
    (gate : control.status = kind.gate) (frozen : control.artifacts.get kind = some artifact) :
    (control.decide kind artifact.sha256 reviewer).Ordered := by
  have rank : control.status.rank + 1 = kind.level := by rw [gate, kind.rank_gate]
  have after : (control.decide kind artifact.sha256 reviewer).status.rank = kind.level := kind.rank_approved
  refine ⟨?_, ordered.planBound, fun other => ?_, fun late => ?_, fun approval decided => ?_, fun waiting => ?_⟩
  · rw [after]
    refine ordered.plan.trans ?_
    have low : 1 ≤ control.status.rank ∨ 1 ≤ kind.level := .inr (by omega)
    constructor
    · omega
    · intro _
      rw [gate]
      cases kind <;> decide
  · rw [after]
    show ((control.approvals.set kind _).get other).isSome = true ↔ _
    rw [PerKind.get_set]
    split_ifs with same
    · simp [same]
    · refine (ordered.media other).trans ?_
      rw [gate]
      cases kind <;> cases other <;> first | decide | exact absurd rfl same
  · rw [after] at late
    cases kind <;> exact absurd late (by decide)
  · have decided : approval ∈ (control.approvals.set kind ⟨reviewer, artifact.sha256, control.planHash⟩).get
        .visualFreeze := decided
    rw [PerKind.get_set] at decided
    split_ifs at decided with sheet
    · subst sheet
      obtain rfl := mem_some_iff.mp decided
      obtain ⟨waiting, receipt, intent, there, found, sent, hash⟩ := ordered.waiting gate
      cases frozen.symm.trans there
      exact ⟨receipt, intent, found, sent, hash⟩
    · exact ordered.delivered approval decided
  · have gate : kind.approved = .waitingVisualFreezeApproval := waiting
    cases kind <;> cases gate

theorem publishedControl_fields {sha : Hash} :
    (publishedControl control sha).planApproval = control.planApproval ∧ (publishedControl control sha).planHash =
    control.planHash ∧ (publishedControl control sha).approvals = control.approvals ∧
    (publishedControl control sha).artifacts = control.artifacts ∧ (publishedControl control sha).status = .published ∧
    (publishedControl control sha).stage? (.telegram .visualFreeze) = control.stage? (.telegram .visualFreeze) := by
  unfold publishedControl
  cases control.stage? .publicationPackage with
  | none => exact ⟨rfl, rfl, rfl, rfl, rfl, rfl⟩
  | some receipt =>
    refine ⟨rfl, rfl, rfl, rfl, rfl, ?_⟩
    simp only [stage?_withStage]
    exact if_neg (by decide)

theorem Control.Ordered.publish {sha : Hash} (ordered : control.Ordered)
    (gate : control.status = .readyForPublication) : (publishedControl control sha).Ordered := by
  obtain ⟨plan, planHash, approvals, artifacts, status, stage⟩ := @publishedControl_fields control sha
  have rank : control.status.rank = 8 := by rw [gate]; rfl
  have late := ordered.bound (by omega)
  constructor
  · rw [plan, status]
    exact ordered.plan.trans ⟨fun _ => by decide, fun _ => by omega⟩
  · rw [plan, planHash]
    exact ordered.planBound
  · intro kind
    rw [approvals, status]
    refine (ordered.media kind).trans ?_
    rw [rank]
    cases kind <;> decide
  · intro _ kind
    rw [artifacts, approvals, planHash]
    exact late kind
  · rw [approvals, stage]
    exact ordered.delivered
  · intro waiting
    rw [status] at waiting
    cases waiting

/-! ## Every move -/

/-- The control document after a move, seen from the one before: it stays in order and does not go back. -/
structure Forward (w w' : World) : Prop where
  ordered : w'.Ordered
  onward : ∀ control, w.control = some control → ∃ control', w'.control = some control' ∧
    control.status.rank ≤ control'.status.rank

theorem Forward.still (ordered : w.Ordered) (same : w'.control = w.control) : Forward w w' where
  ordered control held := ordered control (same ▸ held)
  onward control held := ⟨control, same.trans held, le_rfl⟩

section
variable (held : w.control = some control)
include held

theorem Forward.save (ordered : control'.Ordered)
    (onward : control.status.rank ≤ control'.status.rank) : Forward w (w.save control') where
  ordered := by
    rintro _ ⟨⟩
    exact ordered
  onward := by
    intro before held'
    cases held.symm.trans held'
    exact ⟨control', rfl, onward⟩

theorem Forward.save_after {path : Path} {document : Document}
    (ordered : control'.Ordered) (onward : control.status.rank ≤ control'.status.rank) :
    Forward w ((w.write path document).save control') where
  ordered := by
    rintro _ ⟨⟩
    exact ordered
  onward := by
    intro before held'
    cases held.symm.trans held'
    exact ⟨control', rfl, onward⟩

theorem Forward.decided {reviewer : String} (ordered : control.Ordered)
    (gate : control.status = kind.gate) (frozen : control.artifacts.get kind = some artifact) :
    Forward w (w.save (control.decide kind artifact.sha256 reviewer)) := by
  refine .save held (ordered.decide gate frozen) ?_
  show control.status.rank ≤ kind.approved.rank
  have step : kind.gate.rank + 1 = kind.approved.rank := kind.rank_gate.trans kind.rank_approved.symm
  rw [gate]
  omega

end

theorem Forward.trans {w'' : World} (first : Forward w w') (second : Forward w' w'') : Forward w w'' where
  ordered := second.ordered
  onward control held := by
    obtain ⟨middle, held', before⟩ := first.onward control held
    obtain ⟨last, held'', after⟩ := second.onward middle held'
    exact ⟨last, held'', before.trans after⟩

theorem RunMove.forward (ordered : w.Ordered) (early : ¬ w.Late) (move : RunMove L w w') :
    Forward w w' ∧ ¬ w'.Late := by
  have low {control : Control} (held : w.control = some control) : control.status.rank < 8 :=
    not_le.mp fun late => early ⟨control, held, late⟩
  have still {w' : World} (same : w'.control = w.control) : Forward w w' ∧ ¬ w'.Late := by
    refine ⟨.still ordered same, ?_⟩
    rintro ⟨control, held, late⟩
    exact early ⟨control, same ▸ held, late⟩
  have save {control control' : Control} (held : w.control = some control) (after : control'.Ordered)
      (onward : control.status.rank ≤ control'.status.rank) (bounded : control'.status.rank < 8) :
      Forward w (w.save control') ∧ ¬ (w.save control').Late := by
    refine ⟨.save held after onward, ?_⟩
    rintro ⟨found, ⟨⟩, late⟩
    exact absurd bounded (not_lt.mpr late)
  cases move with
  | provided held => exact still rfl
  | state held => exact still rfl
  | compiled held => exact still rfl
  | made held => exact still rfl
  | sent held => exact still rfl
  | delivered held => exact still rfl
  | started held idle production =>
    have bounded := low held
    exact save held ((ordered _ held).withStage (telegram_ne_of_production production _)) le_rfl bounded
  | completed held running production =>
    have bounded := low held
    exact save held ((ordered _ held).withStage (telegram_ne_of_production production _)) le_rfl bounded
  | frozenSheet held active =>
    have bounded := low held
    exact save held ((ordered _ held).freeze active bounded) le_rfl bounded
  | frozenMedia held active =>
    have bounded := low held
    exact save held ((ordered _ held).freeze active bounded) le_rfl bounded
  | @intended control kind artifact held frozen unsent =>
    have bounded := low held
    refine save held ?_ le_rfl bounded
    by_cases sheet : kind = .visualFreeze
    · subst sheet
      have before := ordered _ held
      refine ⟨before.plan, before.planBound, before.media, before.bound, fun approval decided => ?_, fun waiting => ?_⟩
      · obtain ⟨receipt, intent, found, -⟩ := before.delivered approval decided
        cases unsent.symm.trans found
      · obtain ⟨artifact, receipt, intent, -, found, -⟩ := before.waiting waiting
        cases unsent.symm.trans found
    · exact (ordered _ held).withStage fun same => sheet (StageName.telegram.inj same)
  | @gated control kind artifact value outputs receipt held active frozen ready found intent =>
    have before := ordered _ held
    have rank := before.before_gate active (low held) ready found intent
    refine save held (before.gate active (low held) frozen ready found intent rfl) ?_ ?_
    · show control.status.rank ≤ kind.gate.rank
      omega
    · show kind.gate.rank < 8
      cases kind <;> decide

variable {call : Call}

theorem Move.forward (ordered : w.Ordered) (early : call = .run → ¬ w.Late)
    (keeps : ¬ call.Rejects) (move : Move L call w w') : Forward w w' := by
  cases move with
  | fixture none => exact .still ordered rfl
  | planned none =>
    refine ⟨?_, fun control held => ?_⟩
    · rintro _ ⟨⟩
      exact ordered_waiting _ _ _
    · cases none.symm.trans held
  | planApproved held gate named =>
    have before := ordered _ held
    refine .save held ⟨⟨fun _ => le_rfl, fun _ => rfl⟩, ?_, fun kind => ?_, fun late => ?_, before.delivered,
      fun waiting => by cases waiting⟩ ?_
    · rintro approval ⟨⟩
      rfl
    · refine (before.media kind).trans ?_
      rw [gate]
      show kind.level ≤ 0 ↔ kind.level ≤ 1
      cases kind <;> decide
    · exact absurd late (show ¬ 8 ≤ 1 by decide)
    · rw [gate]
      exact Nat.zero_le _
  | run move => exact (move.forward ordered (early rfl)).1
  | sheetReceipt held => exact .still ordered rfl
  | receipt held => exact .still ordered rfl
  | package held => exact .still ordered rfl
  | approved held gate plain frozen => exact .decided held (ordered _ held) gate frozen
  | approvedVideo held gate frozen bound written =>
    refine .save held (((ordered _ held).decide (show _ = video.gate from gate) frozen).withStage (by decide)) ?_
    rw [gate]
    show 6 ≤ 7
    decide
  | authorization held => exact .still ordered rfl
  | authorized held gate approved =>
    have before := ordered _ held
    refine .save held ⟨?_, before.planBound, fun kind => ?_, fun _ => approved, before.delivered,
      fun waiting => by cases waiting⟩ ?_
    · refine before.plan.trans ?_
      rw [gate]
      show 1 ≤ 7 ↔ 1 ≤ 8
      decide
    · refine (before.media kind).trans ?_
      rw [gate]
      show kind.level ≤ 7 ↔ kind.level ≤ 8
      cases kind <;> decide
    · rw [gate]
      show 7 ≤ 8
      decide
  | intent held => exact .still ordered rfl
  | uploaded held => exact .still ordered rfl
  | published held => exact .still ordered rfl
  | recorded held gate =>
    refine .save_after held ((ordered _ held).publish gate) ?_
    rw [publishedControl_fields.2.2.2.2.1, gate]
    decide
  | rejected held => exact absurd trivial keeps

/-! ## Runs between two rejections -/

theorem Move.early (early : call = .run → ¬ w.Late) (ordered : w.Ordered) (move : Move L call w w') :
    call = .run → ¬ w'.Late := by
  rintro rfl
  cases move with
  | run move => exact (move.forward ordered (early rfl)).2

theorem Moves.forward (ordered : w.Ordered) (early : call = .run → ¬ w.Late)
    (keeps : ¬ call.Rejects) (moves : Moves L call w w') : Forward w w' := by
  suffices both : Forward w w' ∧ (call = .run → ¬ w'.Late) from both.1
  induction moves with
  | refl => exact ⟨.still ordered rfl, early⟩
  | tail _ move ih =>
    obtain ⟨before, quiet⟩ := ih
    exact ⟨before.trans (move.forward before.ordered quiet keeps), move.early quiet before.ordered⟩

theorem Stopped.forward {pending : Option Act} (ordered : w.Ordered) (early : call = .run → ¬ w.Late)
    (keeps : ¬ call.Rejects) (stopped : Moves L call w w' ∨ Torn L call w w' pending) : Forward w w' := by
  rcases stopped with moves | ⟨w₁, control, package, held, gate, moves, rfl, -⟩
  · exact moves.forward ordered early keeps
  · have before := moves.forward ordered early keeps
    exact before.trans (.still before.ordered rfl)

def World.status? (w : World) : Option Status := w.control.map fun control => control.status

def World.rank (w : World) : ℕ := (w.control.map fun control => control.status.rank).getD 0

theorem Forward.rank_le (forward : Forward w w') : w.rank ≤ w'.rank := by
  cases held : w.control with
  | none =>
    simp only [rank, held]
    exact Nat.zero_le _
  | some control =>
    obtain ⟨control', held', onward⟩ := forward.onward control held
    rw [rank, rank, held, held']
    exact onward

/-! ### What was decided, and when -/

inductive Gate
  | plan
  | media (kind : Kind)

def Gate.all : List Gate := [.plan, .media .visualFreeze, .media .thumbnail, .media .video]

def Gate.level : Gate → ℕ
  | plan => 1
  | media kind => kind.level

def Control.passed (control : Control) : Gate → Bool
  | .plan => control.planApproval.isSome
  | .media kind => (control.approvals.get kind).isSome

def World.passed (w : World) (gate : Gate) : Bool := w.control.any (·.passed gate)

def Step.decided (step : Step) : List Gate :=
  Gate.all.filter fun gate => step.after.passed gate && !step.before.passed gate

theorem Control.Ordered.passed_iff (ordered : control.Ordered) (gate : Gate) :
    control.passed gate = true ↔ gate.level ≤ control.status.rank := by
  cases gate with
  | plan => exact ordered.plan
  | media kind => exact ordered.media kind

theorem World.Ordered.passed (ordered : w.Ordered) : w.passed = fun gate => decide (gate.level ≤ w.rank) := by
  funext gate
  rw [Bool.eq_iff_iff, decide_eq_true_iff]
  cases held : w.control with
  | none =>
    have positive : ¬ gate.level ≤ 0 := by
      cases gate with
      | plan => decide
      | media kind => cases kind <;> decide
    simp [World.passed, World.rank, held, positive]
  | some control => simpa [World.passed, World.rank, held] using (ordered control held).passed_iff gate

theorem filter_levels {gates : List Gate} {before after : ℕ}
    (sorted : gates.Pairwise fun first second => first.level ≤ second.level) (onward : before ≤ after) :
    gates.filter (fun gate => decide (gate.level ≤ before)) ++ gates.filter (fun gate => decide (gate.level ≤ after)
    && !decide (gate.level ≤ before)) = gates.filter fun gate => decide (gate.level ≤ after) := by
  induction gates with
  | nil => rfl
  | cons gate rest ih =>
    obtain ⟨first, others⟩ := pairwise_cons.mp sorted
    by_cases reached : gate.level ≤ before
    · simp [reached, reached.trans onward, ih others]
    · have none : rest.filter (fun gate => decide (gate.level ≤ before)) = [] :=
        filter_eq_nil_iff.mpr fun other member => by
          have := first other member
          simp only [decide_eq_true_eq]
          omega
      have rest := ih others
      rw [none, nil_append] at rest
      simp [reached, none, filter_cons, rest]

theorem Step.decided_append {step : Step} (before : step.before.Ordered) (after : step.after.Ordered)
    (onward : step.before.rank ≤ step.after.rank) :
    Gate.all.filter step.before.passed ++ step.decided = Gate.all.filter step.after.passed := by
  unfold decided
  rw [before.passed, after.passed]
  exact filter_levels (by decide) onward

variable {w₀ : World} {steps : List Step}

/-- A run of calls that do not reject and that do not run the stages of an authorized revision. -/
structure Quiet (steps : List Step) : Prop where
  keeps : ∀ step ∈ steps, ¬ step.call.Rejects
  early : ∀ step ∈ steps, step.call = .run → ¬ step.before.Late

theorem Quiet.init {step : Step} (quiet : Quiet (steps ++ [step])) : Quiet steps :=
  ⟨fun other member => quiet.keeps other (mem_append_left _ member),
    fun other member => quiet.early other (mem_append_left _ member)⟩

theorem Run.ordered (ordered : w₀.Ordered) (run : Run L w₀ steps w) (quiet : Quiet steps) :
    w.Ordered ∧ (∀ step ∈ steps, step.before.rank ≤ step.after.rank ∧ step.after.rank ≤ w.rank) ∧
      Gate.all.filter w₀.passed ++ steps.flatMap decided = Gate.all.filter w.passed := by
  induction run with
  | start => exact ⟨ordered, by simp, by simp⟩
  | @call w w' steps call oracle pid pending run stops ih =>
    obtain ⟨before, inside, decided⟩ := ih quiet.init
    have last : (⟨call, w, w', pending⟩ : Step) ∈ steps ++ [⟨call, w, w', pending⟩] := by simp
    have forward := Stopped.forward before (quiet.early _ last) (quiet.keeps _ last)
      (stays_program call w' pending stops)
    refine ⟨forward.ordered, fun step member => ?_, ?_⟩
    · rcases mem_append.mp member with earlier | now
      · exact ⟨(inside step earlier).1, (inside step earlier).2.trans forward.rank_le⟩
      · obtain rfl := mem_singleton.mp now
        exact ⟨forward.rank_le, le_rfl⟩
    · rw [flatMap_append, ← append_assoc, decided]
      simp only [flatMap_cons, flatMap_nil, append_nil]
      exact @Step.decided_append ⟨call, w, w', pending⟩ before forward.ordered forward.rank_le

def World.Begins (L : Libraries) (w : World) : Prop :=
  ∀ control, w.control = some control →
    ∃ plan history, control = waiting plan (L.planDigest plan) history

theorem World.Begins.ordered (begins : w.Begins L) : w.Ordered := by
  intro control held
  obtain ⟨plan, history, rfl⟩ := begins control held
  exact ordered_waiting _ _ _

theorem World.Begins.passed (begins : w.Begins L) : Gate.all.filter w.passed = [] := by
  refine filter_eq_nil_iff.mpr fun gate _ => ?_
  cases held : w.control with
  | none => simp [World.passed, held]
  | some control =>
    obtain ⟨plan, history, rfl⟩ := begins control held
    cases gate with
    | plan => simp [World.passed, held, Control.passed, Control.waiting]
    | media kind => cases kind <;> simp [World.passed, held, Control.passed, Control.waiting]

/-- As long as nobody runs the stages of an authorized revision, its gates are passed in their order, for the
plan and the artifacts that it has, and none is passed twice. -/
theorem gates_forward (begins : w₀.Begins L) (run : Run L w₀ steps w) (quiet : Quiet steps) :
    (∀ step ∈ steps, step.before.rank ≤ step.after.rank ∧ step.after.rank ≤ w.rank) ∧ ∀ control, w.control =
    some control → control.status = .readyForPublication ∨ control.status = .published → control.AllApproved ∧ (∃
    approval ∈ control.planApproval, approval.planHash = control.planHash) ∧ steps.flatMap decided = Gate.all := by
  obtain ⟨ordered, inside, decided⟩ := run.ordered begins.ordered quiet
  refine ⟨inside, fun control held status => ?_⟩
  have late : 8 ≤ control.status.rank := by
    rcases status with same | same <;> rw [same] <;> decide
  have now := ordered control held
  refine ⟨now.bound late, ?_, ?_⟩
  · obtain ⟨approval, there⟩ := isSome_iff_exists.mp (now.plan.mpr (by omega))
    exact ⟨approval, there, now.planBound approval there⟩
  · rw [begins.passed, nil_append] at decided
    rw [decided]
    refine filter_eq_self.mpr fun gate _ => ?_
    have low : gate.level ≤ 8 := by
      cases gate with
      | plan => decide
      | media kind => cases kind <;> decide
    simpa [World.passed, held] using (now.passed_iff gate).mpr (low.trans late)

def sampleAuthorized : List Turn :=
  sampleProduction false ++ [sampleTurn "noon" (.authorizePublication authorizeCommand "reviewer")]

def Call.isRun : Call → Bool
  | run => true
  | _ => false

instance (call : Call) : Decidable call.Rejects := by
  cases call <;> unfold Call.Rejects <;> infer_instance

/-- One more run after the authorization. -/
theorem sampleAuthorized_run : ∃ steps step w, Run sampleLibraries emptyWorld (steps ++ [step]) w ∧
    (steps.all fun step => !decide step.call.Rejects && decide (step.before.rank < 8)) = true ∧
    (lastWorld emptyWorld steps).status? = some .readyForPublication ∧ step.call = .run ∧
    step.before.status? = some .readyForPublication ∧ step.after.status? = some .waitingThumbnailApproval := by
  have plays : (play sampleLibraries emptyWorld (sampleAuthorized ++ [sampleTurn "noon" .run])).any (fun all =>
      all.getLast?.any fun step =>
        (all.dropLast.all fun step => !decide step.call.Rejects && decide (step.before.rank < 8)) &&
        decide ((lastWorld emptyWorld all.dropLast).status? = some .readyForPublication) && step.call.isRun &&
        decide (step.before.status? = some .readyForPublication) &&
        decide (step.after.status? = some .waitingThumbnailApproval)) = true := by
    decide +kernel
  obtain ⟨all, run, checked⟩ := Run.of_play plays
  obtain ⟨step, last, checked⟩ := (Option.any_eq_true ..).mp checked
  simp only [and_eq_true, decide_eq_true_eq] at checked
  obtain ⟨⟨⟨⟨quiet, ready⟩, called⟩, before⟩, after⟩ := checked
  rw [← dropLast_append_getLast? step last] at run
  refine ⟨all.dropLast, step, _, run, quiet, ready, ?_, before, after⟩
  cases is : step.call <;> simp_all [Call.isRun]

theorem gates_forward_sample : ∃ steps w, Run sampleLibraries emptyWorld steps w ∧
    w.status? = some .readyForPublication ∧ steps.flatMap decided = Gate.all := by
  obtain ⟨steps, step, w, run, quiet, status, -⟩ := sampleAuthorized_run
  have run := run.dropLast
  have each := fun step member => and_eq_true_iff.mp (all_eq_true.mp quiet step member)
  refine ⟨steps, _, run, status, ?_⟩
  obtain ⟨control, held, same⟩ := map_eq_some_iff.mp status
  refine ((gates_forward (by rintro _ ⟨⟩) run ⟨fun step member => ?_, fun step member _ => ?_⟩).2 control held
    (.inl same)).2.2
  · simpa using (each step member).1
  · rintro ⟨found, held, late⟩
    have low := of_decide_eq_true (each step member).2
    rw [rank, held] at low
    exact absurd low (not_lt.mpr late)

/-- A run of an authorized revision asks for the thumbnail again. -/
theorem run_turns_back : ∃ steps w,
    Run sampleLibraries emptyWorld steps w ∧ (∀ step ∈ steps, ¬ step.call.Rejects) ∧ ∃ step ∈ steps, step.call =
    .run ∧ step.before.status? = some .readyForPublication ∧ step.after.status? = some .waitingThumbnailApproval := by
  obtain ⟨steps, step, w, run, quiet, -, called, before, after⟩ := sampleAuthorized_run
  refine ⟨_, w, run, fun other member => ?_, step, mem_append_right _ (mem_singleton_self step), called, before, after⟩
  rcases mem_append.mp member with earlier | last
  · simpa using (and_eq_true_iff.mp (all_eq_true.mp quiet other earlier)).1
  · rw [mem_singleton.mp last, called]
    exact id

end VideoPoster.Harness
