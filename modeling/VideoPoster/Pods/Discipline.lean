import VideoPoster.Interleaving.Outcomes
import VideoPoster.Pods.Lifecycle

/-!
# The discipline of a pod's termination
-/

namespace VideoPoster.Pods
open Python Interleaving Option World Function Prod Nat Bool

variable (owner : Owner) (tagOf : String → Json)

/-- Files can be written, and the transport does what it is asked: a new pod has a well-formed id and the tag that
its specification asks for, and the list names the tags that the pods have. -/
def Working (e : Event actions) : Prop :=
  match e with
  | ⟨_, .save _, response⟩ => response = .ok ()
  | ⟨_, .writeClaim _, response⟩ => response = .ok ()
  | ⟨_, .createPod spec, response⟩ =>
    ∃ created podId, response = .ok created ∧ createdId created = .ok podId ∧ tagOf podId = podOwnershipTag spec
  | ⟨_, .terminatePod _, response⟩ => response = .ok ()
  | ⟨_, .listPods, response⟩ =>
    ∃ pods, response = .ok pods ∧ ∀ pod podId, .obj pod ∈ pods → Dict.get pod "id" = some (.str podId) →
      tagOf podId = podOwnershipTag pod
  | _ => True

def Undisturbed (e : Event actions) : Prop :=
  match e with
  | ⟨_, .load .cleanupOrphans _, found⟩ => ∀ state ∈ found, state.terminateClaimed = true → state.terminated = true
  | _ => True

def orderly : Condition machine := fun _ e => Working tagOf e ∧ Undisturbed e

noncomputable abbrev orderlyMachine : Machine actions := machine.restrict (orderly tagOf)

def opened (kind : ClaimKind) (identifier : String) : Event actions → Bool
  | ⟨_, .openClaim kind' identifier', true⟩ => kind' = kind && identifier' = identifier
  | _ => false

def createsPod : Event actions → Bool
  | ⟨_, .createPod _, _⟩ => true
  | _ => false

def creates (podId : String) : Event actions → Bool
  | ⟨_, .createPod _, .ok created⟩ => (createdId created).toOption = some podId
  | _ => false

def terminates (podId : String) : Event actions → Bool
  | ⟨_, .terminatePod podId', _⟩ => podId' = podId
  | _ => false

def adopts (podId : String) : Event actions → Bool
  | ⟨_, .save checkpoint, .ok _⟩ => checkpoint.podId = podId && !checkpoint.terminateClaimed
  | _ => false

def World.Claimed (w : World) (podId : String) : Prop := (w.claims .terminate podId).isSome = true

structure Inv (s : Shared (orderlyMachine tagOf)) : Prop where
  claims : ∀ kind identifier, s.trace.countP (opened kind identifier) =
    if (s.world.claims kind identifier).isSome then 1 else 0
  checkpoint : ∀ podId state, s.world.checkpoints podId = some state → state.podId = podId ∧
    state.ownerTag = owner.tag ∧ tagOf podId = .str owner.tag ∧
    (state.terminateClaimed = true → s.world.Claimed podId) ∧
    (s.world.Claimed podId ∨ ∃ e ∈ s.trace, adopts podId e = true)
  created : ∀ pid, countBy createsPod pid s.trace ≤ countBy (opened .create owner.tag) pid s.trace
  terminated : ∀ pid podId, countBy (terminates podId) pid s.trace ≤ countBy (opened .terminate podId) pid s.trace
  owned : ∀ e ∈ s.trace, ∀ podId, terminates podId e = true → tagOf podId = .str owner.tag

def grants (pid : ℕ) (s : Shared (orderlyMachine tagOf)) : Act → Prop
  | .save checkpoint => checkpoint.ownerTag = owner.tag ∧ tagOf checkpoint.podId = .str owner.tag ∧
      (checkpoint.terminateClaimed = true → s.world.Claimed checkpoint.podId)
  | .writeClaim claim => (s.world.claims claim.kind claim.identifier).isSome = true
  | .unlinkClaim _ _ => False
  | .createPod spec => podOwnershipTag spec = .str owner.tag ∧
      countBy createsPod pid s.trace < countBy (opened .create owner.tag) pid s.trace
  | .terminatePod podId => tagOf podId = .str owner.tag ∧
      countBy (terminates podId) pid s.trace < countBy (opened .terminate podId) pid s.trace
  | _ => True

variable {owner tagOf} {pid : ℕ} {action : Act} {response : action.Res} {s s' : Shared (orderlyMachine tagOf)}

structure Grows (s s' : Shared (orderlyMachine tagOf)) : Prop where
  claims : ∀ kind identifier, (s.world.claims kind identifier).isSome = true →
    (s'.world.claims kind identifier).isSome = true
  checkpoints : ∀ podId, s.world.checkpoints podId ≠ none → s'.world.checkpoints podId ≠ none

theorem world_of_performs (performs : Performs pid action response s s') :
    ∃ oracle, exec oracle pid s.world action = some (s'.world, response) ∧ Working tagOf ⟨pid, action, response⟩ ∧
    Undisturbed ⟨pid, action, response⟩ ∧ s'.trace = ⟨pid, action, response⟩ :: s.trace := by
  obtain ⟨oracle, executed, ⟨working, undisturbed⟩, extended⟩ := performs_restrict.mp performs
  exact ⟨oracle, executed, working, undisturbed, extended⟩

def Effect (w w' : World) : (action : Act) → action.Res → Prop
  | .save checkpoint, _ => w' = w.setCheckpoint checkpoint
  | .openClaim kind identifier, true =>
    w.claims kind identifier = none ∧ w' = w.setClaim kind identifier (some none)
  | .openClaim kind identifier, false => w.claims kind identifier ≠ none ∧ w' = w
  | .writeClaim claim, _ => w' = w.setClaim claim.kind claim.identifier (some (some claim))
  | .unlinkClaim _ _, _ => True
  | .createPod spec, _ => w' = { w with created := spec :: w.created }
  | .terminatePod podId, _ => w' = { w with terminations := podId :: w.terminations }
  | .load _ podId, found => found = w.checkpoints podId ∧ w' = w
  | .readClaim _ _, _ | .operate _, _ | .listPods, _ => w' = w

theorem effect_of_performs (performs : Performs pid action response s s') :
    s'.trace = ⟨pid, action, response⟩ :: s.trace ∧ Effect s.world s'.world action response := by
  obtain ⟨oracle, executed, working, -, extended⟩ := world_of_performs performs
  refine ⟨extended, ?_⟩
  cases action with
  | save checkpoint =>
    cases (show response = .ok () from working)
    exact written_ok (some.inj executed)
  | writeClaim claim =>
    cases (show response = .ok () from working)
    exact written_ok (some.inj executed)
  | openClaim kind identifier =>
    simp only [exec] at executed
    cases found : s.world.claims kind identifier with
    | none =>
      simp only [found] at executed
      obtain ⟨world, rfl⟩ := mk.inj (some.inj executed)
      exact ⟨found, world.symm⟩
    | some file =>
      simp only [found] at executed
      obtain ⟨world, rfl⟩ := mk.inj (some.inj executed)
      exact ⟨by simp [found], world.symm⟩
  | unlinkClaim kind identifier => trivial
  | load caller podId =>
    obtain ⟨world, rfl⟩ := mk.inj (some.inj executed)
    exact ⟨by rw [world], world.symm⟩
  | createPod spec => exact (mk.inj (some.inj executed)).1.symm
  | operate podId => exact (mk.inj (some.inj executed)).1.symm
  | terminatePod podId => exact (mk.inj (some.inj executed)).1.symm
  | listPods => exact (mk.inj (some.inj executed)).1.symm
  | readClaim kind identifier => exact (mk.inj (some.inj executed)).1.symm

theorem claims_setClaim {w : World} {kind kind' : ClaimKind} {identifier identifier' : String}
    {file : Option (Option Claim)} : (w.setClaim kind identifier file).claims kind' identifier' =
      if kind' = kind ∧ identifier' = identifier then file else w.claims kind' identifier' := by
  unfold setClaim
  by_cases same : kind' = kind
  · subst same
    simp [update_apply]
  · simp [same]

theorem Grows.of_effect (effect : Effect s.world s'.world action response) (kept : ∀ kind identifier,
    action ≠ .unlinkClaim kind identifier) : Grows s s' := by
  have still (same : s'.world = s.world) : Grows s s' := ⟨fun _ _ => by rw [same]; exact id, fun _ => by rw [same]; exact id⟩
  have claim {kind : ClaimKind} {identifier : String} {file : Option Claim}
      (same : s'.world = s.world.setClaim kind identifier (some file)) : Grows s s' := by
    refine ⟨fun kind' identifier' there => ?_, fun podId there => ?_⟩
    · rw [same, claims_setClaim]
      split_ifs
      · rfl
      · exact there
    · rw [same]
      exact there
  cases action with
  | save checkpoint =>
    have same : s'.world = s.world.setCheckpoint checkpoint := effect
    refine ⟨fun _ _ => by rw [same]; exact id, fun podId there => ?_⟩
    rw [same]
    show update s.world.checkpoints checkpoint.podId (some checkpoint) podId ≠ none
    rw [update_apply]
    split_ifs
    · simp
    · exact there
  | openClaim kind identifier =>
    cases response with
    | true => exact claim effect.2
    | false => exact still effect.2
  | writeClaim written => exact claim effect
  | unlinkClaim kind identifier => exact absurd rfl (kept kind identifier)
  | createPod spec =>
    have same : s'.world = { s.world with created := spec :: s.world.created } := effect
    exact ⟨fun _ _ => by rw [same]; exact id, fun _ => by rw [same]; exact id⟩
  | terminatePod podId =>
    have same : s'.world = { s.world with terminations := podId :: s.world.terminations } := effect
    exact ⟨fun _ _ => by rw [same]; exact id, fun _ => by rw [same]; exact id⟩
  | load caller podId => exact still effect.2
  | readClaim kind identifier => exact still effect
  | operate podId => exact still effect
  | listPods => exact still effect

theorem Grows.of_performs (granted : grants owner tagOf pid s action) (performs : Performs pid action response s s') :
    Grows s s' := by
  refine .of_effect (effect_of_performs performs).2 ?_
  rintro kind identifier rfl
  exact granted

theorem opened_eq_true {kind : ClaimKind} {identifier : String} {e : Event actions}
    (is : opened kind identifier e = true) : ∃ pid, e = ⟨pid, .openClaim kind identifier, true⟩ := by
  unfold opened at is
  split at is
  · simp only [and_eq_true, decide_eq_true_eq] at is
    obtain ⟨rfl, rfl⟩ := is
    exact ⟨_, rfl⟩
  · cases is

theorem isSome_claims (granted : grants owner tagOf pid s action) (effect : Effect s.world s'.world action response)
    (kind : ClaimKind) (identifier : String) : (s'.world.claims kind identifier).isSome =
    ((s.world.claims kind identifier).isSome || opened kind identifier ⟨pid, action, response⟩)
    ∧ (opened kind identifier ⟨pid, action, response⟩ = true → s.world.claims kind identifier = none) := by
  have still (same : s'.world.claims = s.world.claims) (unopened : opened kind identifier ⟨pid, action, response⟩ = false) :
      (s'.world.claims kind identifier).isSome =
        ((s.world.claims kind identifier).isSome || opened kind identifier ⟨pid, action, response⟩) ∧
      (opened kind identifier ⟨pid, action, response⟩ = true → s.world.claims kind identifier = none) := by
    rw [same, unopened]
    simp
  cases action with
  | openClaim kind' identifier' =>
    cases response with
    | true =>
      obtain ⟨free, same⟩ : s.world.claims kind' identifier' = none ∧
        s'.world = s.world.setClaim kind' identifier' (some none) := effect
      rw [same, claims_setClaim]
      by_cases is : kind = kind' ∧ identifier = identifier'
      · obtain ⟨rfl, rfl⟩ := is
        simp [opened, free]
      · have other : opened kind identifier ⟨pid, .openClaim kind' identifier', true⟩ = false := by
          by_contra opens
          obtain ⟨_, same⟩ := opened_eq_true (of_not_eq_false opens)
          cases same
          exact is ⟨rfl, rfl⟩
        simp [is, other]
    | false => exact still (congrArg claims effect.2) rfl
  | writeClaim claim =>
    have same : s'.world = s.world.setClaim claim.kind claim.identifier (some (some claim)) := effect
    have there : (s.world.claims claim.kind claim.identifier).isSome = true := granted
    rw [same, claims_setClaim]
    split_ifs with is
    · obtain ⟨rfl, rfl⟩ := is
      simp [there, opened]
    · simp [opened]
  | unlinkClaim kind' identifier' => exact granted.elim
  | save checkpoint =>
    have same : s'.world = s.world.setCheckpoint checkpoint := effect
    exact still (by rw [same]; rfl) rfl
  | createPod spec =>
    have same : s'.world = { s.world with created := spec :: s.world.created } := effect
    exact still (by rw [same]) rfl
  | terminatePod podId =>
    have same : s'.world = { s.world with terminations := podId :: s.world.terminations } := effect
    exact still (by rw [same]) rfl
  | load caller podId => exact still (congrArg claims effect.2) rfl
  | readClaim kind' identifier' => exact still (congrArg claims effect) rfl
  | operate podId => exact still (congrArg claims effect) rfl
  | listPods => exact still (congrArg claims effect) rfl

theorem createsPod_eq_true {e : Event actions} (is : createsPod e = true) : ∃ spec, e.action = .createPod spec := by
  unfold createsPod at is
  split at is
  · exact ⟨_, rfl⟩
  · cases is

theorem terminates_eq_true {podId : String} {e : Event actions} (is : terminates podId e = true) :
    e.action = .terminatePod podId := by
  unfold terminates at is
  split at is
  · exact congrArg _ (of_decide_eq_true is)
  · cases is

theorem checkpoints_of_effect (effect : Effect s.world s'.world action response)
    (granted : grants owner tagOf pid s action) : (∃ checkpoint, action =
    .save checkpoint ∧ s'.world = s.world.setCheckpoint checkpoint) ∨ s'.world.checkpoints = s.world.checkpoints := by
  cases action with
  | save checkpoint => exact .inl ⟨checkpoint, rfl, effect⟩
  | openClaim kind identifier =>
    cases response with
    | true =>
      have same : s'.world = s.world.setClaim kind identifier (some none) := effect.2
      exact .inr (by rw [same]; rfl)
    | false => exact .inr (congrArg checkpoints effect.2)
  | writeClaim claim =>
    have same : s'.world = s.world.setClaim claim.kind claim.identifier (some (some claim)) := effect
    exact .inr (by rw [same]; rfl)
  | unlinkClaim kind identifier => exact granted.elim
  | createPod spec =>
    have same : s'.world = { s.world with created := spec :: s.world.created } := effect
    exact .inr (by rw [same])
  | terminatePod podId =>
    have same : s'.world = { s.world with terminations := podId :: s.world.terminations } := effect
    exact .inr (by rw [same])
  | load caller podId => exact .inr (congrArg checkpoints effect.2)
  | readClaim kind identifier => exact .inr (congrArg checkpoints effect)
  | operate podId => exact .inr (congrArg checkpoints effect)
  | listPods => exact .inr (congrArg checkpoints effect)

theorem Inv.step (inv : Inv owner tagOf s) (granted : grants owner tagOf pid s action)
    (performs : Performs pid action response s s') : Inv owner tagOf s' := by
  have grows := Grows.of_performs granted performs
  obtain ⟨extended, effect⟩ := effect_of_performs performs
  constructor
  · intro kind identifier
    obtain ⟨now, before⟩ := isSome_claims granted effect kind identifier
    rw [extended, List.countP_cons, inv.claims, now]
    cases opens : opened kind identifier ⟨pid, action, response⟩ with
    | false => simp
    | true => simp [before opens]
  · intro podId state found
    have kept (old : s.world.checkpoints podId = some state) : state.podId = podId ∧
        state.ownerTag = owner.tag ∧ tagOf podId = .str owner.tag ∧
        (state.terminateClaimed = true → s'.world.Claimed podId) ∧
        (s'.world.Claimed podId ∨ ∃ e ∈ s'.trace, adopts podId e = true) := by
      obtain ⟨named, owned, tagged, claimed, adopted⟩ := inv.checkpoint podId state old
      refine ⟨named, owned, tagged, fun is => grows.claims _ _ (claimed is), adopted.imp (grows.claims _ _) ?_⟩
      rintro ⟨e, member, is⟩
      exact ⟨e, extended ▸ .tail _ member, is⟩
    rcases checkpoints_of_effect effect granted with ⟨checkpoint, rfl, same⟩ | same
    · rw [same] at found
      have found : update s.world.checkpoints checkpoint.podId (some checkpoint) podId = some state := found
      rw [update_apply] at found
      split_ifs at found with is
      · cases found
        subst is
        obtain ⟨owned, tagged, claimed⟩ := granted
        have claimed : state.terminateClaimed = true → s'.world.Claimed state.podId :=
          fun is => grows.claims _ _ (claimed is)
        refine ⟨rfl, owned, tagged, claimed, ?_⟩
        cases known : state.terminateClaimed with
        | true => exact .inl (claimed known)
        | false =>
          obtain ⟨_, -, working, -, -⟩ := world_of_performs performs
          cases (show response = .ok () from working)
          refine .inr ⟨_, extended ▸ List.mem_cons_self .., ?_⟩
          simp [adopts, known]
      · exact kept found
    · exact kept (same ▸ found)
  · intro actor
    rw [performs.countBy, performs.countBy]
    by_cases is : (createsPod ⟨pid, action, response⟩ && decide (pid = actor)) = true
    · obtain ⟨creates, same⟩ := and_eq_true_iff.mp is
      obtain ⟨spec, rfl⟩ := createsPod_eq_true creates
      obtain rfl := of_decide_eq_true same
      rw [if_pos is]
      exact (succ_le_of_lt granted.2).trans (le_add_right _ _)
    · rw [if_neg is]
      exact (inv.created actor).trans (le_add_right _ _)
  · intro actor podId
    rw [performs.countBy, performs.countBy]
    by_cases is : (terminates podId ⟨pid, action, response⟩ && decide (pid = actor)) = true
    · obtain ⟨terminates, same⟩ := and_eq_true_iff.mp is
      obtain rfl := terminates_eq_true terminates
      obtain rfl := of_decide_eq_true same
      rw [if_pos is]
      exact (succ_le_of_lt granted.2).trans (le_add_right _ _)
    · rw [if_neg is]
      exact (inv.terminated actor podId).trans (le_add_right _ _)
  · intro e member podId is
    rw [extended] at member
    rcases List.mem_cons.mp member with rfl | earlier
    · obtain rfl := terminates_eq_true is
      exact granted.1
    · exact inv.owned e earlier podId is

noncomputable def discipline (owner : Owner) (tagOf : String → Json) : Protocol (orderlyMachine tagOf) where
  inv := Inv owner tagOf
  grants := grants owner tagOf
  preserves := Inv.step
  survives := fun _ => id

end VideoPoster.Pods
