import VideoPoster.Autonomous.Loop
import VideoPoster.Autonomous.Order
import VideoPoster.Autonomous.History

/-!
# Dependents of remedied jobs
-/

namespace VideoPoster.Autonomous
open Python Runner List Phase Loop Done Graph

/-! ## Resumes that go well -/

def Stage.Succeeds (id : String) : Stage → Prop
  | .finished outcome => ∃ sha256 answer, outcome = .ok (sha256, some answer) ∧
      (judge id sha256 answer).approved = true
  | _ => True

namespace Loop

/-- A move in which nobody fails: the approved verdicts are valid, the task succeeds, its approval is
accepted and saved. -/
inductive Cooperates (s : Loop) : Move → Prop
  | decide {inspect : String → Result (Option Receipt)} (valid : validateQa inspect s.document.qa = .ok ()) :
      Cooperates s (.decide inspect true)
  | advance {index : ℕ} {stage : Stage}
      (succeeds : ∀ task, s.tasks[index]? = some task → stage.Succeeds task.1) : Cooperates s (.advance index stage)
  | settle {settlings : List Settling}
      (accepted : ∀ settling ∈ settlings, settling.recorded = none ∧ settling.saves = true) :
      Cooperates s (.settle settlings)

/-- Whichever of these moves are made, in any order, there is one to make until the goal is reached. -/
inductive Completes (G : Graph) (goal : Loop → Prop) : Loop → Prop
  | reached {s : Loop} (reached : goal s) : Completes G goal s
  | step {s : Loop} (progress : ∃ move s', s.Cooperates move ∧ s.step G move = some s')
      (all : ∀ move s', s.Cooperates move → s.step G move = some s' → Completes G goal s') :
      Completes G goal s

/-- The resume has returned with the media pending, and what was pending before is approved. -/
structure Completed (G : Graph) (document : Document) (s : Loop) : Prop where
  ended : s.phase = .ended (.ok ())
  state : s.document.state = .mediaPending
  approved : ∀ id ∈ G.ordered, qaOf document id = none → approvedIn s.document id = some true

end Loop

def Graph.Unblocked (G : Graph) (document : Document) : Prop :=
  ∀ id ∈ G.ordered, qaOf document id = none → ∀ dep ∈ G.edges id, approvedIn document dep ≠ some false

variable {G : Graph} {s s' : Loop} {document : Document} {id : String}

theorem Graph.blocked_iff : G.blocked document [] = true ↔ ¬ G.Unblocked document := by
  unfold blocked pending Unblocked
  simp

theorem settle_succeeds {inflight : List String} {done : List Done}
    (verifiable : Verifiable document) (good : ∀ task ∈ done, (Stage.finished task.outcome).Succeeds task.requestId ∧
    task.recorded = none ∧ task.saves = true) (known : ∀ task ∈ done, task.requestId ∈ inflight) (once : inflight.Nodup)
    (distinct : (done.map requestId).Nodup) : ∃ document', settle document inflight done = (document',
    inflight.filter (· ∉ done.map requestId), none) ∧ active document' = active document ∧ Verifiable document' ∧
    ∀ id, approvedIn document' id = if id ∈ done.map requestId then some true else approvedIn document id := by
  induction done generalizing document inflight with
  | nil => exact ⟨document, by simp [settle], rfl, verifiable, fun id => by simp⟩
  | cons task rest ih =>
    obtain ⟨⟨sha256, answer, outcome, approved⟩, recorded, saves⟩ := good task mem_cons_self
    obtain ⟨first, later⟩ := nodup_cons.mp distinct
    have stay : ∀ other ∈ rest, other.requestId ∈ inflight.erase task.requestId := by
      intro other member
      refine (mem_erase_of_ne fun same => first ?_).mpr (known other (.tail _ member))
      rw [← same]
      exact mem_map_of_mem member
    obtain ⟨document', settled, active, verifiable, verdicts⟩ :=
      ih (verifiable.setQa : Verifiable (setQa document task.requestId (judge task.requestId sha256 answer)))
        (fun other member => good other (.tail _ member)) stay (once.erase _) later
    refine ⟨document', ?_, active, verifiable, fun id => ?_⟩
    · rw [settle, if_pos (known task mem_cons_self), outcome, recorded]
      simp only [approved, saves, if_true, settled, Prod.mk.injEq, and_true, true_and]
      rw [once.erase_eq_filter, filter_filter]
      refine filter_congr fun id _ => ?_
      rw [map_cons]
      by_cases same : id = task.requestId <;> simp [same]
    · rw [verdicts, approvedIn_setQa, approved]
      by_cases same : id = task.requestId
      · have listed : id ∈ (task :: rest).map requestId := by
          rw [same]
          exact mem_cons_self
        rw [if_pos same, ite_self, if_pos listed]
      · rw [if_neg same]
        exact if_congr (by rw [map_cons, mem_cons, or_iff_right same]) rfl rfl

namespace Loop

theorem mapM_done? {settlings : List Settling} {done : List Done} (is : settlings.mapM s.done? = some done) :
    done.map requestId = settlings.map Settling.requestId ∧ ∀ task ∈ done, (task.requestId, .finished task.outcome)
    ∈ s.tasks ∧ ∃ settling ∈ settlings, task.recorded = settling.recorded ∧ task.saves = settling.saves := by
  induction settlings generalizing done with
  | nil =>
    cases is
    exact ⟨rfl, fun task member => by cases member⟩
  | cons settling rest ih =>
    rw [mapM_cons] at is
    obtain ⟨task, found, is⟩ := Option.bind_eq_some_iff.mp is
    obtain ⟨others, more, is⟩ := Option.bind_eq_some_iff.mp is
    cases is
    obtain ⟨ids, read⟩ := ih more
    unfold done? at found
    split at found
    · rename_i outcome at_
      cases found
      refine ⟨congrArg _ ids, forall_mem_cons.mpr ⟨⟨?_, settling, mem_cons_self, rfl, rfl⟩, ?_⟩⟩
      · obtain ⟨before, after, is, -⟩ := lookup_eq_some_iff.mp at_
        rw [is]
        exact mem_append_right _ mem_cons_self
      · intro task member
        obtain ⟨at_, settling, asked, same⟩ := read task member
        exact ⟨at_, settling, .tail _ asked, same⟩
    · cases found

theorem done?_of_mem {task : String × Stage} {outcome : Result (String × Option (Option QaAnswer))}
    (once : s.inflight.Nodup) (member : task ∈ s.tasks) (finished : task.2 = .finished outcome) :
    s.done? ⟨task.1, none, true⟩ = some ⟨task.1, outcome, none, true⟩ := by
  have found : s.tasks.lookup task.1 = some (.finished outcome) := by
    refine lookup_eq_some_iff.mpr ?_
    obtain ⟨before, after, is⟩ := append_of_mem member
    refine ⟨before, after, by rw [← finished]; exact is, fun other earlier => ?_⟩
    rw [inflight, is, map_append, nodup_append] at once
    exact bne_iff_ne.mpr (once.2.2 other.1 (mem_map_of_mem earlier) task.1
      (mem_map_of_mem mem_cons_self)).symm
  unfold done?
  rw [found]

end Loop

/-! ## Progress -/

def Stage.rank : Stage → ℕ
  | .ready => 6
  | .running => 5
  | .ran => 4
  | .judging => 3
  | .finished _ => 2

theorem Stage.rank_next {stage stage' : Stage} (next : stage.next stage' = true) : stage'.rank < stage.rank := by
  cases stage <;> cases stage' <;> simp_all [Stage.next, Stage.rank]

def Phase.rank : Phase → ℕ
  | .deciding => 1
  | _ => 0

namespace Loop

def measure (G : Graph) (s : Loop) : ℕ :=
  7 * (G.pending s.document s.inflight).length + (s.tasks.map fun task => task.2.rank).sum + s.phase.rank

structure Going (G : Graph) (document : Document) (s : Loop) : Prop where
  active : active s.document = active document
  verdicts : ∀ id, approvedIn s.document id = approvedIn document id ∨ approvedIn s.document id = some true
  verifiable : Verifiable s.document
  once : s.inflight.Nodup
  pending : ∀ id ∈ s.inflight, id ∈ G.ordered ∧ qaOf s.document id = none
  succeeding : ∀ task ∈ s.tasks, task.2.Succeeds task.1
  phase : s.phase = .deciding ∨ s.phase = .waiting ∧ s.tasks ≠ []

theorem Going.start (verifiable : Verifiable document) : (start document).Going G document where
  active := rfl
  verdicts _ := .inl rfl
  verifiable := verifiable
  once := .nil
  pending := fun id member => by cases member
  succeeding := fun task member => by cases member
  phase := .inl rfl

theorem Going.not_rejected (going : s.Going G document) (before : approvedIn document id ≠ some false) :
    approvedIn s.document id ≠ some false := by
  obtain same | approved := going.verdicts id
  · rw [same]
    exact before
  · rw [approved]
    simp

theorem Going.was_pending (going : s.Going G document) (pending : qaOf s.document id = none) :
    qaOf document id = none := by
  rw [← approvedIn_eq_none] at pending ⊢
  obtain same | approved := going.verdicts id
  · rw [← same, pending]
  · rw [approved] at pending
    cases pending

variable {task : String × Stage}

theorem sum_rank_filter {tasks : List (String × Stage)} {p : String × Stage → Bool}
    (member : task ∈ tasks) (out : p task = false) :
    ((tasks.filter p).map fun task => task.2.rank).sum + task.2.rank ≤ (tasks.map fun task => task.2.rank).sum := by
  obtain ⟨before, after, rfl⟩ := append_of_mem member
  have less : ∀ tasks : List (String × Stage),
      ((tasks.filter p).map fun task => task.2.rank).sum ≤ (tasks.map fun task => task.2.rank).sum :=
    fun tasks => (filter_sublist.map _).sum_le_sum fun rank _ => Nat.zero_le rank
  have first := less before
  have last := less after
  rw [filter_append, filter_cons_of_neg (by simp [out])]
  simp only [map_append, map_cons, sum_append, sum_cons]
  omega

theorem Going.settled {done : List Done} (going : s.Going G document)
    (some_ : done ≠ []) (finished : ∀ task ∈ done, (task.requestId, .finished task.outcome) ∈ s.tasks)
    (accepted : ∀ task ∈ done, task.recorded = none ∧ task.saves = true) (distinct : (done.map requestId).Nodup) :
    (s.settled done).Going G document ∧ (s.settled done).measure G < s.measure G := by
  have known : ∀ task ∈ done, task.requestId ∈ s.inflight := fun task member =>
    mem_map_of_mem (finished task member)
  obtain ⟨document', settled, active, verifiable, verdicts⟩ := settle_succeeds going.verifiable
    (fun task member => ⟨going.succeeding _ (finished task member), accepted task member⟩) known going.once distinct
  have is : s.settled done = ⟨document', s.tasks.filter fun task => task.1 ∉ done.map requestId, .deciding⟩ := by
    unfold Loop.settled
    rw [settled]
    dsimp only
    refine congrArg (fun tasks => Loop.mk document' tasks deciding) (filter_congr fun task member => ?_)
    have here : task.1 ∈ s.inflight := mem_map_of_mem member
    simp [here]
  have inflight : (s.settled done).inflight = s.inflight.filter (· ∉ done.map requestId) := by
    rw [is, inflight, inflight, filter_map]
    rfl
  refine ⟨⟨?_, ?_, ?_, ?_, ?_, ?_, ?_⟩, ?_⟩
  · rw [is]
    exact active.trans going.active
  · intro id
    rw [is, verdicts]
    split_ifs
    · exact .inr rfl
    · exact going.verdicts id
  · rw [is]
    exact verifiable
  · rw [inflight]
    exact going.once.filter _
  · intro id member
    rw [inflight] at member
    obtain ⟨member, other⟩ := mem_filter.mp member
    obtain ⟨listed, pending⟩ := going.pending id member
    refine ⟨listed, ?_⟩
    rw [is, ← approvedIn_eq_none, verdicts, if_neg (of_decide_eq_true other)]
    exact approvedIn_eq_none.2 pending
  · intro task member
    rw [is] at member
    exact going.succeeding task (mem_of_mem_filter member)
  · exact .inl (by rw [is])
  · obtain ⟨task, member⟩ := exists_mem_of_ne_nil done some_
    have gone := sum_rank_filter (p := fun task => task.1 ∉ done.map requestId) (finished task member)
      (by simpa using ⟨task, member, rfl⟩)
    have fewer : (G.pending (s.settled done).document (s.settled done).inflight).length ≤
        (G.pending s.document s.inflight).length := by
      refine (monotone_filter_right _ fun id pending => ?_).length_le
      obtain ⟨open_, free⟩ := of_decide_eq_true pending
      rw [inflight, mem_filter, not_and, decide_eq_true_iff, not_not] at free
      have other : id ∉ done.map requestId := by
        intro settled
        rw [is, Option.isNone_iff_eq_none, ← approvedIn_eq_none, verdicts, if_pos settled] at open_
        cases open_
      rw [is, Option.isNone_iff_eq_none, ← approvedIn_eq_none, verdicts, if_neg other] at open_
      exact decide_eq_true ⟨Option.isNone_iff_eq_none.mpr (approvedIn_eq_none.1 open_),
        fun member => other (free member)⟩
    have phase : (s.settled done).phase.rank = 1 := by
      rw [is]
      rfl
    have tasks : (s.settled done).tasks = s.tasks.filter fun task => task.1 ∉ done.map requestId := by rw [is]
    unfold measure
    rw [phase, tasks]
    have rank : (Stage.finished task.outcome).rank = 2 := rfl
    dsimp only at gone
    omega

variable {index : ℕ}

theorem split_at {α : Type} {xs : List α} {x : α} (found : xs[index]? = some x) :
    ∃ before after, xs = before ++ x :: after ∧ ∀ y, xs.set index y = before ++ y :: after := by
  induction xs generalizing index with
  | nil => cases found
  | cons head rest ih =>
    cases index with
    | zero =>
      cases found
      exact ⟨[], rest, rfl, fun y => rfl⟩
    | succ index =>
      obtain ⟨before, after, rfl, set⟩ := ih found
      exact ⟨head :: before, after, rfl, fun y => congrArg _ (set y)⟩

theorem Going.advanced {stage : Stage} (going : s.Going G document)
    (found : s.tasks[index]? = some task) (next : task.2.next stage = true) (succeeds : stage.Succeeds task.1) :
    ({ s with tasks := s.tasks.set index (task.1, stage) } : Loop).Going G document ∧
      ({ s with tasks := s.tasks.set index (task.1, stage) } : Loop).measure G < s.measure G := by
  obtain ⟨before, after, is, set⟩ := split_at found
  rw [set]
  have same : ({ s with tasks := before ++ (task.1, stage) :: after } : Loop).inflight = s.inflight := by
    simp [inflight, is]
  refine ⟨⟨going.active, going.verdicts, going.verifiable, ?_, ?_, ?_, ?_⟩, ?_⟩
  · rw [same]
    exact going.once
  · rw [same]
    exact going.pending
  · intro other member
    have all := going.succeeding
    rw [is] at all
    obtain early | later := mem_append.mp member
    · exact all other (mem_append_left _ early)
    · obtain rfl | later := mem_cons.mp later
      · exact succeeds
      · exact all other (mem_append_right _ (.tail _ later))
  · exact going.phase.imp id fun waiting => ⟨waiting.1, by simp⟩
  · have less := Stage.rank_next next
    unfold measure
    rw [same, is]
    simp only [map_append, map_cons, sum_append, sum_cons]
    omega

variable {ids : List String}

theorem Going.decision {inspect : String → Result (Option Receipt)} (going : s.Going G document)
    (order : Ordered ids G.edges G.ordered) (listed : ∀ id ∈ Runner.active document, id ∈ G.ordered) (superseded :
    ∀ id ∈ Runner.active document, approvedIn document id ≠ some false) (unblocked : G.Unblocked document) (window : 0 <
    G.window) (valid : validateQa inspect s.document.qa = .ok ()) : s.inflight = [] ∧ (∀ id ∈ G.ordered, qaOf s.document
    id ≠ none) ∧ G.decision s.document s.inflight inspect = .returned { s.document with state := .mediaPending }
    ∨ s.inflight ++ (G.ready s.document s.inflight).take (G.window - s.inflight.length) ≠ [] ∧ G.decision s.document
    s.inflight inspect = .dispatched ((G.ready s.document s.inflight).take (G.window - s.inflight.length)) := by
  have active : activeRejected s.document = false := by
    refine any_eq_false.mpr fun id member => ?_
    rw [going.active] at member
    simpa using going.not_rejected (superseded id member)
  have free : G.blocked s.document s.inflight = false := by
    refine any_eq_false.mpr fun id member => ?_
    obtain ⟨known, pending⟩ := mem_filter.mp member
    have before := going.was_pending (Option.isNone_iff_eq_none.mp (of_decide_eq_true pending).1)
    rw [Bool.not_eq_true, any_eq_false]
    intro dep needed
    simpa using going.not_rejected (unblocked id known before dep needed)
  unfold Graph.decision
  rw [valid]
  dsimp only
  rw [if_neg (by rw [active]; exact Bool.false_ne_true)]
  by_cases quiet : G.pending s.document s.inflight = [] ∧ s.inflight = []
  · have judged : ∀ id ∈ G.ordered, qaOf s.document id ≠ none := by
      intro id member pending
      have here : id ∈ G.pending s.document s.inflight :=
        mem_filter.mpr ⟨member, by simp [pending, quiet.2]⟩
      rw [quiet.1] at here
      cases here
    have passed : (Runner.active s.document).all (fun id => approvedIn s.document id = some true) = true := by
      refine all_eq_true.mpr fun id member => ?_
      rw [going.active] at member
      have known := approvedIn_eq_none.not.mpr (judged id (listed id member))
      have good := going.not_rejected (superseded id member)
      cases verdict : approvedIn s.document id with
      | none => exact absurd verdict known
      | some approved => cases approved <;> simp_all
    rw [if_pos quiet, if_pos passed]
    exact .inl ⟨quiet.2, judged, rfl⟩
  · rw [if_neg quiet, if_neg (by rw [free]; exact Bool.false_ne_true)]
    have some_ : s.inflight ++ (G.ready s.document s.inflight).take (G.window - s.inflight.length) ≠ [] := by
      intro none
      obtain ⟨none, taken⟩ := append_eq_nil_iff.mp none
      obtain ⟨id, waits⟩ := exists_mem_of_ne_nil _ fun empty => quiet ⟨empty, none⟩
      obtain ⟨known, waits⟩ := mem_filter.mp waits
      obtain ⟨first, known, waits, deps⟩ := order.first (fun id => qaOf s.document id = .none)
        ⟨id, known, Option.isNone_iff_eq_none.mp (of_decide_eq_true waits).1⟩
      have ready : first ∈ G.ready s.document s.inflight := by
        refine mem_filter.mpr ⟨mem_filter.mpr ⟨known, by simp [waits, none]⟩, ?_⟩
        refine all_eq_true.mpr fun dep needed => ?_
        obtain ⟨-, judged⟩ := deps dep needed
        have good := going.not_rejected (unblocked first known (going.was_pending waits) dep needed)
        rw [← approvedIn_eq_none] at judged
        cases verdict : approvedIn s.document dep with
        | none => exact absurd verdict judged
        | some approved => cases approved <;> simp_all
      rw [none, length_nil, Nat.sub_zero, take_eq_nil_iff] at taken
      obtain none | empty := taken
      · omega
      · rw [none, empty] at ready
        cases ready
    rw [if_neg some_]
    exact .inr ⟨some_, rfl⟩

theorem Going.dispatched (going : s.Going G document) (ordered : G.ordered.Nodup) (deciding : s.phase = .deciding)
    (sub : ids.Sublist (G.pending s.document s.inflight)) (some_ : s.inflight ++ ids ≠ []) : (s.decided
    true (.dispatched ids)).Going G document ∧ (s.decided true (.dispatched ids)).measure G < s.measure G := by
  have inflight : (s.decided true (.dispatched ids)).inflight = s.inflight ++ ids := by
    simp [decided, inflight, Function.comp_def]
  have distinct : ids.Nodup := (ordered.filter _).sublist sub
  have waiting : ∀ id ∈ ids, (id ∈ G.ordered ∧ qaOf s.document id = none) ∧ id ∉ s.inflight := by
    intro id member
    obtain ⟨known, waits⟩ := mem_filter.mp (sub.subset member)
    obtain ⟨pending, free⟩ := of_decide_eq_true waits
    exact ⟨⟨known, Option.isNone_iff_eq_none.mp pending⟩, free⟩
  refine ⟨⟨going.active, going.verdicts, going.verifiable, ?_, ?_, ?_, ?_⟩, ?_⟩
  · rw [inflight, nodup_append]
    refine ⟨going.once, distinct, fun id here other there same => ?_⟩
    exact (waiting other there).2 (same ▸ here)
  · intro id member
    rw [inflight] at member
    obtain old | new := mem_append.mp member
    · exact going.pending id old
    · exact (waiting id new).1
  · intro task member
    obtain old | new := mem_append.mp member
    · exact going.succeeding task old
    · obtain ⟨id, -, rfl⟩ := mem_map.mp new
      trivial
  · refine .inr ⟨rfl, fun none => some_ ?_⟩
    rw [← inflight, Loop.inflight, none]
    rfl
  · have taken : (G.pending s.document (s.inflight ++ ids)).length + ids.length ≤
        (G.pending s.document s.inflight).length := by
      have split : G.pending s.document (s.inflight ++ ids) =
          (G.pending s.document s.inflight).filter fun id => !decide (id ∈ ids) := by
        unfold Graph.pending
        rw [filter_filter]
        refine filter_congr fun id _ => ?_
        by_cases member : id ∈ ids <;> simp [member]
      have all := length_eq_length_filter_add (l := G.pending s.document s.inflight) fun id => decide (id ∈ ids)
      have least : ids.length ≤ ((G.pending s.document s.inflight).filter fun id => decide (id ∈ ids)).length := by
        refine (subperm_of_subset distinct fun id member => ?_).length_le
        exact mem_filter.mpr ⟨sub.subset member, decide_eq_true member⟩
      rw [split]
      omega
    have ranks : ((ids.map fun id => (id, Stage.ready)).map fun task => task.2.rank).sum = ids.length * 6 := by
      simp [Function.comp_def, Stage.rank]
    have phase : s.phase.rank = 1 := by
      rw [deciding]
      rfl
    unfold measure
    rw [inflight, phase]
    simp only [decided, map_append, sum_append, ranks, rank]
    omega

structure Remediable (G : Graph) (document : Document) : Prop where
  order : ∃ ids, Ordered ids G.edges G.ordered
  listed : ∀ id ∈ Runner.active document, id ∈ G.ordered
  superseded : ∀ id ∈ Runner.active document, approvedIn document id ≠ some false
  provider : 0 < G.limits.providerConcurrency
  cpu : 0 < G.limits.cpuConcurrency

theorem Going.step {move : Move} (going : s.Going G document) (remediable : Remediable G document)
    (unblocked : G.Unblocked document) (cooperates : s.Cooperates move) (stepped : s.step G move = some s') :
    s'.Completed G document ∨ s'.Going G document ∧ s'.measure G < s.measure G := by
  obtain ⟨ids, order⟩ := remediable.order
  cases took_of_step stepped with
  | @decide inspect saves deciding =>
    cases cooperates with
    | decide valid =>
      have window : 0 < G.window := Nat.add_pos_left remediable.provider _
      obtain ⟨none, judged, is⟩ | ⟨some_, is⟩ :=
        going.decision order remediable.listed remediable.superseded unblocked window valid
      · rw [is]
        refine .inl ⟨rfl, rfl, fun id known pending => ?_⟩
        obtain same | approved := going.verdicts id
        · rw [approvedIn_eq_none.2 pending] at same
          exact absurd (approvedIn_eq_none.1 same) (judged id known)
        · exact approved
      · rw [is]
        refine .inr (going.dispatched order.distinct deciding ?_ some_)
        exact (take_sublist ..).trans filter_sublist
  | advance found next free =>
    cases cooperates with
    | advance succeeds => exact .inr (going.advanced found next (succeeds _ found))
  | @settle settlings done waiting finished some_ distinct =>
    cases cooperates with
    | settle accepted =>
      obtain ⟨ids, read⟩ := mapM_done? finished
      refine .inr (going.settled ?_ (fun task member => (read task member).1) ?_ (by rw [ids]; exact distinct))
      · rintro rfl
        exact some_ (map_eq_nil_iff.mp ids.symm)
      · intro task member
        obtain ⟨-, settling, asked, recorded, saves⟩ := read task member
        rw [recorded, saves]
        exact accepted settling asked
  | gathered failing finished =>
    obtain deciding | ⟨waiting, -⟩ := going.phase
    · rw [deciding] at failing
      cases failing
    · rw [waiting] at failing
      cases failing

def approvingAnswer (id : String) : QaAnswer :=
  ⟨some id, some "result", some ⟨some "reviewer", some "studio"⟩, true, some "reviewer"⟩

theorem judge_approvingAnswer : (judge id "result" (some (approvingAnswer id))).approved = true := by
  have known : independent (approvingAnswer id).identity = true := by
    change independent (some ⟨some "reviewer", some "studio"⟩) = true
    decide
  have named : (approvingAnswer id).reviewer.any (fun reviewer => ¬blank reviewer) = true := by
    change (some "reviewer").any (fun reviewer => ¬blank reviewer) = true
    decide
  unfold judge
  dsimp only
  rw [if_pos ⟨rfl, rfl, known⟩, if_pos ⟨rfl, named⟩]

theorem step_advance (stage : Stage) (member : task ∈ s.tasks) (next : task.2.next stage = true) (free : s.slotFree
    G stage = true) (succeeds : stage.Succeeds task.1) : ∃ move s', s.Cooperates move ∧ s.step G move = some s' := by
  obtain ⟨index, found⟩ := mem_iff_getElem?.mp member
  refine ⟨.advance index stage, { s with tasks := s.tasks.set index (task.1, stage) }, .advance fun other at_ => ?_, ?_⟩
  · rw [found] at at_
    cases at_
    exact succeeds
  · dsimp only [step]
    rw [found]
    exact if_pos ⟨next, free⟩

theorem Going.task_progresses (going : s.Going G document) (remediable : Remediable G document)
    (waiting : s.phase = .waiting) (some_ : s.tasks ≠ []) : ∃ move s', s.Cooperates move ∧ s.step G move = some s' := by
  by_cases finished : ∃ task ∈ s.tasks, task.2.isFinished = true
  · obtain ⟨task, member, finished⟩ := finished
    cases at_ : task.2 with
    | finished outcome =>
      have found := done?_of_mem going.once member at_
      refine ⟨.settle [⟨task.1, none, true⟩], s.settled [⟨task.1, outcome, none, true⟩], .settle ?_, ?_⟩
      · intro settling asked
        obtain rfl := mem_singleton.mp asked
        exact ⟨rfl, rfl⟩
      · simp [Loop.step, waiting, found]
    | _ =>
      rw [at_] at finished
      cases finished
  · by_cases judging : ∃ task ∈ s.tasks, task.2 = .judging
    · obtain ⟨task, member, judging⟩ := judging
      refine step_advance (.finished (.ok ("result", some (some (approvingAnswer task.1))))) member ?_ rfl
        ⟨"result", some (approvingAnswer task.1), rfl, judge_approvingAnswer⟩
      rw [judging]
      rfl
    · by_cases running : ∃ task ∈ s.tasks, task.2 = .running
      · obtain ⟨task, member, running⟩ := running
        exact step_advance .ran member (by rw [running]; rfl) rfl trivial
      · by_cases ran : ∃ task ∈ s.tasks, task.2 = .ran
        · obtain ⟨task, member, ran⟩ := ran
          refine step_advance .judging member (by rw [ran]; rfl) (decide_eq_true ?_) trivial
          have none : s.judging = 0 := by
            refine countP_eq_zero.mpr fun task member => ?_
            have other : task.2 ≠ .judging := fun same => judging ⟨task, member, same⟩
            cases at_ : task.2 <;> simp_all
          exact none.trans_lt remediable.cpu
        · obtain ⟨task, member⟩ := exists_mem_of_ne_nil _ some_
          have ready : task.2 = .ready := by
            cases at_ : task.2 with
            | ready => rfl
            | finished outcome => exact absurd ⟨task, member, by rw [at_]; rfl⟩ finished
            | judging => exact absurd ⟨task, member, at_⟩ judging
            | running => exact absurd ⟨task, member, at_⟩ running
            | ran => exact absurd ⟨task, member, at_⟩ ran
          refine step_advance .running member (by rw [ready]; rfl) (decide_eq_true ?_) trivial
          have none : s.running = 0 := by
            refine countP_eq_zero.mpr fun task member => ?_
            have other : task.2 ≠ .running := fun same => running ⟨task, member, same⟩
            cases at_ : task.2 <;> simp_all
          exact none.trans_lt remediable.provider

theorem Going.progresses (going : s.Going G document) (remediable : Remediable G document) :
    ∃ move s', s.Cooperates move ∧ s.step G move = some s' := by
  obtain deciding | ⟨waiting, some_⟩ := going.phase
  · obtain ⟨inspect, valid⟩ := going.verifiable
    refine ⟨.decide inspect true, s.decided true (G.decision s.document s.inflight inspect), .decide valid, ?_⟩
    dsimp only [Loop.step]
    rw [deciding]
  · exact going.task_progresses remediable waiting some_

theorem Going.completes (going : s.Going G document) (remediable : Remediable G document)
    (unblocked : G.Unblocked document) : Completes G (Completed G document) s := by
  induction left : s.measure G using Nat.strong_induction_on generalizing s with
  | h turns ih =>
    refine .step (going.progresses remediable) fun move s' cooperates stepped => ?_
    obtain completed | ⟨going', less⟩ := going.step remediable unblocked cooperates stepped
    · exact .reached completed
    · exact ih _ (left ▸ less) going' rfl

/-! ## Blocked resumes -/

theorem decision_blocked (inspect : String → Result (Option Receipt)) (blocked : ¬ G.Unblocked document) :
    (∀ ids, G.decision document [] inspect ≠ .dispatched ids) ∧
      ∀ document', G.decision document [] inspect = .returned document' → document'.state = .rejected := by
  have blocked := blocked_iff.2 blocked
  have some_ : G.pending document [] ≠ [] := by
    intro none
    rw [Graph.blocked, none] at blocked
    cases blocked
  unfold decision
  split
  · split_ifs <;> simp
  · dsimp only
    split_ifs with rejected quiet passed
    · simp
    · exact absurd quiet.1 some_
    · exact absurd quiet.1 some_
    · simp

theorem decided_idle {made : Decision} (idle : ∀ ids, made ≠ .dispatched ids) (rejected : ∀ document',
    made = .returned document' → document'.state = .rejected) (saves : Bool) : (s.decided saves made).tasks =
    s.tasks ∧ (s.decided saves made).phase ≠ .deciding ∧ (s.decided saves made).phase ≠ .waiting ∧
    ((s.decided saves made).phase = .ended (.ok ()) → (s.decided saves made).document.state = .rejected) := by
  cases made with
  | returned document' =>
    cases saves with
    | false => exact ⟨rfl, Phase.noConfusion, Phase.noConfusion, Phase.noConfusion⟩
    | true => exact ⟨rfl, Phase.noConfusion, Phase.noConfusion, fun _ => rejected document' rfl⟩
  | rejected document' error =>
    cases saves <;> exact ⟨rfl, Phase.noConfusion, Phase.noConfusion, Phase.noConfusion⟩
  | raised error => exact ⟨rfl, Phase.noConfusion, Phase.noConfusion, Phase.noConfusion⟩
  | dispatched ids => exact absurd rfl (idle ids)

theorem Reaches.blocked {allowed : Loop → Prop} (reaches : Reaches G allowed document s)
    (blocked : ¬ G.Unblocked document) : s.tasks = [] ∧ (s = Loop.start document ∨
    s.phase ≠ .deciding ∧ s.phase ≠ .waiting ∧ (s.phase = .ended (.ok ()) → s.document.state = .rejected)) := by
  induction reaches with
  | start => exact ⟨rfl, .inl rfl⟩
  | step reaches may stepped ih =>
    obtain ⟨none, ih⟩ := ih
    cases took_of_step stepped with
    | @decide inspect saves deciding =>
      obtain rfl | ⟨not, -⟩ := ih
      · obtain ⟨idle, rejected⟩ := decision_blocked inspect blocked
        obtain ⟨tasks, decides⟩ := @decided_idle (Loop.start document) _ idle rejected saves
        exact ⟨tasks, .inr decides⟩
      · exact absurd deciding not
    | advance found next free =>
      rw [none] at found
      cases found
    | settle waiting finished some_ distinct =>
      obtain rfl | ⟨-, not, -⟩ := ih
      · cases waiting
      · exact absurd waiting not
    | gathered failing finished =>
      exact ⟨none, .inr ⟨Phase.noConfusion, Phase.noConfusion, fun ended => by cases ended⟩⟩

theorem blocked_not_completes (blocked : ¬ G.Unblocked document)
    (reaches : Reaches G (fun _ => True) document s) : ¬ Completes G (Completed G document) s := by
  intro completes
  induction completes with
  | reached completed =>
    obtain ⟨-, rfl | ⟨-, -, rejected⟩⟩ := reaches.blocked blocked
    · cases completed.ended
    · have is := completed.state
      rw [rejected completed.ended] at is
      cases is
  | step progress all ih =>
    obtain ⟨move, s', cooperates, stepped⟩ := progress
    exact ih move s' cooperates stepped (reaches.step trivial stepped)

end Loop

/-! ## Remedied documents -/

inductive Remedied (document : Document) : String → Prop
  | last {id : String} (accepted : approvedIn document id ≠ some false) : Remedied document id
  | next {item : Binding} {successor : String} (bound : item ∈ document.jobs)
      (superseded : item.supersededBy = some successor) (later : Remedied document successor) :
      Remedied document item.requestId

variable {requestId jobSha256 : Job → String}

theorem active_not_rejected (sound : Sound requestId jobSha256 document) (remedied : ∀ id, approvedIn document id =
    some false → Remedied document id) : ∀ id ∈ Runner.active document, approvedIn document id ≠ some false := by
  intro id member rejected
  obtain ⟨item, bound, rfl⟩ := mem_map.mp member
  obtain ⟨bound, current⟩ := mem_filter.mp bound
  have chain := remedied item.requestId rejected
  generalize named : item.requestId = id at chain rejected
  cases chain with
  | last accepted => exact accepted rejected
  | next other superseded later =>
    have same := inj_on_of_nodup_map sound.distinct bound other named
    rw [← same, of_decide_eq_true current] at superseded
    cases superseded

namespace Runner
variable (requestId jobSha256 : Job → String) (runner : Runner)

def resuming (document : Document) : Document := { document with state := .running }

def graph (jobs : List Job) (ordered : List String) : Graph :=
  ⟨ordered, edgesOf requestId jobs ordered, runner.scheduler⟩

end Runner

variable {jobs : List Job}

theorem validateResumeJobs_ids {given : List Job} (is : validateResumeJobs requestId jobSha256 document given =
    .ok jobs) : ∀ item ∈ document.jobs, item.requestId ∈ jobs.map requestId := by
  have collected : ∀ (given known : List Job), ∀ job ∈ known ++ given, requestId job ∈ (given.foldl (fun known job =>
        if known.any fun other => requestId other = requestId job then known else known ++ [job]) known).map
          requestId := by
    intro given
    induction given with
    | nil => exact fun known job member => mem_map_of_mem (by simpa using member)
    | cons first rest ih =>
      intro known job member
      rw [foldl_cons]
      split_ifs with there
      · obtain early | late := mem_append.mp member
        · exact ih known job (mem_append_left _ early)
        · obtain rfl | late := mem_cons.mp late
          · obtain ⟨other, member, same⟩ := any_eq_true.mp there
            rw [← of_decide_eq_true same]
            exact ih known other (mem_append_left _ member)
          · exact ih known job (mem_append_right _ late)
      · exact ih (known ++ [first]) job (by rw [append_assoc]; exact member)
  simp only [validateResumeJobs, bind_eq_ok, require_eq_ok, pure_eq_ok] at is
  obtain ⟨⟨⟩, ⟨-, all⟩, rfl⟩ := is
  intro item member
  obtain ⟨job, isJob, same⟩ := mem_map.mp (all _ (mem_map_of_mem member))
  obtain ⟨id, -⟩ := Prod.mk.inj same
  rw [← id]
  exact collected given [] job isJob

theorem resumedJobs_ids {given : Option (List Job)} (is : resumedJobs requestId jobSha256 document given = .ok jobs) :
    ∀ item ∈ document.jobs, item.requestId ∈ jobs.map requestId := by
  cases given with
  | some given => exact validateResumeJobs_ids is
  | none =>
    obtain ⟨rebuilt, -, is⟩ := bind_eq_ok.mp is
    exact validateResumeJobs_ids is

/-- Dependents of remedied jobs are run, and a resume with a provider and reviewers that succeed gets to
its end, exactly if no pending job depends on a rejected one; otherwise nothing is dispatched. -/
theorem remediation_unblocks_iff {requestId jobSha256 : Job → String} {runner : Runner} {calls : List Call}
    {given : Option (List Job)} {jobs : List Job} {ordered : List String}
    (history : (run requestId jobSha256 runner [] none calls).2 = some document)
    (resumed : resumedJobs requestId jobSha256 document given = .ok jobs)
    (order : topologicalOrder requestId jobs = .ok ordered)
    (provider : 0 < runner.scheduler.providerConcurrency) (cpu : 0 < runner.scheduler.cpuConcurrency)
    (remedied : ∀ id, approvedIn document id = some false → Remedied document id) :
    let G := runner.graph requestId jobs ordered
    (Loop.Completes G (Loop.Completed G (resuming document)) (start (resuming document)) ↔ G.Unblocked document) ∧
    (¬ G.Unblocked document → ∀ s, Loop.Reaches G (fun _ => True) (resuming document) s → s.tasks = []) := by
  intro G
  have fresh : SoundDisk requestId jobSha256 none := fun _ is => by cases is
  have sound := run_sound fresh document history
  have arranged := topologicalOrder_ordered order
  have remediable : Loop.Remediable G (resuming document) := {
    order := ⟨_, arranged⟩
    listed := by
      intro id member
      obtain ⟨item, bound, rfl⟩ := mem_map.mp member
      exact arranged.members.mem_iff.mpr (resumedJobs_ids resumed item (mem_of_mem_filter bound))
    superseded := fun id member => active_not_rejected sound remedied id member
    provider := provider
    cpu := cpu }
  refine ⟨⟨fun completes => ?_, fun unblocked => ?_⟩, fun blocked s reaches => ?_⟩
  · by_contra blocked
    have stays : ¬ G.Unblocked (resuming document) := blocked
    exact blocked_not_completes stays .start completes
  · have going : Loop.Going G (resuming document) (start (resuming document)) := .start sound.verifiable
    exact going.completes remediable unblocked
  · exact (reaches.blocked blocked).1

/-! ## A dependent -/

def sampleSceneJob (scene category predecessor : String) (payload : Dict) : Job :=
  ⟨scene, category, "TEST", "fal", payload, some .null, 1, predecessor, "IMAGE_EDIT"⟩

def judgingResume (verdicts : List (String × Bool)) : Call :=
  .resume ⟨none, sampleInspect (some "result"), true,
    [⟨sampleInspect (some "result"), true, verdicts.map fun verdict =>
      ⟨verdict.1, .ok ("result", some (some { approvingAnswer verdict.1 with approved := verdict.2 })), none,
        true⟩⟩,
      ⟨sampleInspect (some "result"), true, []⟩]⟩

def remediedCalls (payload : Dict) : List Call :=
  [.start ⟨"packet", [sampleSceneJob "a" "first" "" [], sampleSceneJob "b" "first" "" []], true⟩,
    judgingResume [("a-first", false), ("b-first", true)],
    .addSuccessors ⟨[sampleSceneJob "a" "correction" "a-first" []], true⟩,
    judgingResume [("a-correction", true)],
    .addSuccessors ⟨[sampleSceneJob "b" "hero" "b-first" payload], true⟩]

def remediedJobs (payload : Dict) : List Job :=
  [sampleSceneJob "a" "first" "" [], sampleSceneJob "b" "first" "" [],
    sampleSceneJob "a" "correction" "a-first" [], sampleSceneJob "b" "hero" "b-first" payload]

def remediedOrder : List String := ["a-correction", "a-first", "b-first", "b-hero"]

def remediedGraph (payload : Dict) : Graph := sampleRunner.graph sampleId (remediedJobs payload) remediedOrder

structure RemediedBy (payload : Dict) (document : Document) : Prop where
  history : (run sampleId sampleId sampleRunner [] none (remediedCalls payload)).2 = some document
  resumed : resumedJobs sampleId sampleId document none = .ok (remediedJobs payload)
  order : topologicalOrder sampleId (remediedJobs payload) = .ok remediedOrder
  remedied : ∀ id, approvedIn document id = some false → Remedied document id

theorem approvedIn_eq_lookup (document : Document) (id : String) :
    approvedIn document id = (document.qa.map fun entry => (entry.1, entry.2.approved)).lookup id := by
  unfold approvedIn qaOf
  induction document.qa with
  | nil => rfl
  | cons entry rest ih =>
    obtain ⟨key, verdict⟩ := entry
    rw [map_cons, lookup_cons, lookup_cons]
    cases id == key with
    | true => rfl
    | false => exact ih

theorem remediedBy {payload : Dict} {free : Bool}
    (is : (run sampleId sampleId sampleRunner [] none (remediedCalls payload)).2.any (fun document =>
      (resumedJobs sampleId sampleId document none).toOption = some (remediedJobs payload) &&
      (topologicalOrder sampleId (remediedJobs payload)).toOption = some remediedOrder &&
      document.qa.map (fun entry => (entry.1, entry.2.approved)) =
        [("a-first", false), ("b-first", true), ("a-correction", true)] &&
      document.jobs.contains ⟨"a-first", "a-first", some "a-correction"⟩ &&
      (remediedGraph payload).blocked document [] != free) = true) :
    ∃ document, RemediedBy payload document ∧ ((remediedGraph payload).Unblocked document ↔ free = true) := by
  obtain ⟨document, history, is⟩ := (Option.any_eq_true _ _).mp is
  simp only [Bool.and_eq_true, decide_eq_true_iff, bne_iff_ne] at is
  obtain ⟨⟨⟨⟨resumed, order⟩, verdicts⟩, superseded⟩, blocked⟩ := is
  refine ⟨document, ⟨history, toOption_eq_some.mp resumed, toOption_eq_some.mp order, fun id rejected => ?_⟩, ?_⟩
  · rw [approvedIn_eq_lookup, verdicts] at rejected
    have isFirst : id = "a-first" := by
      by_contra other
      simp only [lookup_cons, beq_eq_false_iff_ne.mpr other] at rejected
      revert rejected
      cases id == "b-first" <;> cases id == "a-correction" <;> simp
    rw [isFirst]
    refine .next (contains_iff_mem.mp superseded) rfl (.last ?_)
    rw [approvedIn_eq_lookup, verdicts]
    decide
  · rw [← not_iff_not, ← blocked_iff]
    cases free <;> simp_all

theorem remedied_resume_completes : ∃ document, RemediedBy [] document ∧ Loop.Completes (remediedGraph [])
      (Loop.Completed (remediedGraph []) (resuming document)) (start (resuming document)) := by
  obtain ⟨document, is, free⟩ := @remediedBy [] true (by decide +kernel)
  have iff := remediation_unblocks_iff is.history is.resumed is.order (by decide) (by decide) is.remedied
  exact ⟨document, is, iff.1.mpr (free.mpr rfl)⟩

def dependingPayload : Dict := [("depends_on", .arr [.str "a-first"])]

theorem remedied_resume_blocked :
    ∃ document, RemediedBy dependingPayload document ∧ ¬ Loop.Completes (remediedGraph dependingPayload)
      (Loop.Completed (remediedGraph dependingPayload) (resuming document)) (start (resuming document)) := by
  obtain ⟨document, is, free⟩ := @remediedBy dependingPayload false (by decide +kernel)
  have stays : ¬ (remediedGraph dependingPayload).Unblocked (resuming document) := by
    intro unblocked
    cases free.mp unblocked
  exact ⟨document, is, blocked_not_completes stays .start⟩

end VideoPoster.Autonomous
