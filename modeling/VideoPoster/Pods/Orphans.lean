import VideoPoster.Interleaving.Interruption
import VideoPoster.Pods.Lifecycle

/-!
# What a cleanup terminates
-/

namespace VideoPoster.Pods
open Python Interleaving Prog World Function List Option Config

variable {owner : Owner} {oracle : Oracle} {pid : ℕ} {w w' : World} {podId other : String}

def World.Unrecorded (w : World) (podId : String) : Prop :=
  ∀ state, w.checkpoints podId = some state → state.terminated = false

def World.Released (w : World) (podId : String) : Prop :=
  w.claims .terminate podId = none ∨ ∃ state, w.checkpoints podId = some state ∧ state.terminateClaimed = true

structure World.Same (w w' : World) (podId : String) : Prop where
  checkpoint : w'.checkpoints podId = w.checkpoints podId
  claim : w'.claims .terminate podId = w.claims .terminate podId
  count : w'.terminations.count podId = w.terminations.count podId

theorem World.Same.refl (w : World) (podId : String) : w.Same w podId := ⟨rfl, rfl, rfl⟩

theorem World.Same.trans {w'' : World} (first : w.Same w' podId) (second : w'.Same w'' podId) : w.Same w'' podId :=
  ⟨second.checkpoint.trans first.checkpoint, second.claim.trans first.claim, second.count.trans first.count⟩

theorem World.Same.unrecorded (same : w.Same w' podId) (unrecorded : w.Unrecorded podId) : w'.Unrecorded podId := by
  rwa [Unrecorded, same.checkpoint]

theorem World.Same.released (same : w.Same w' podId) : w'.Released podId ↔ w.Released podId := by
  rw [Released, same.checkpoint, same.claim, Released]

theorem ends_load {caller : Caller} {found : Option Checkpoint}
    (ends : (load owner caller podId).Ends (M := machine) oracle pid w (.ok found) w') :
    w' = w ∧ found = w.checkpoints podId ∧ ∀ state ∈ found, state.podId = podId ∧ state.ownerTag = owner.tag := by
  simp only [load, Program.ofResult, Program.perform, bind_eq, ends_bind_iff, ends_ofExcept_iff, ends_act_iff,
    ends_pure_iff, exec, pure_eq] at ends
  obtain ⟨_, _, ⟨-, rfl⟩, _, _, ⟨_, _, executed, same, rfl⟩, _, _, ⟨checked, rfl⟩, found', rfl⟩ := ends
  cases executed
  cases same
  cases found'
  exact ⟨rfl, rfl, require_eq_ok.mp checked.symm⟩

variable {checkpoint : Checkpoint}

theorem ends_save (ends : (Program.save checkpoint).Ends (M := machine) oracle pid w (.ok ()) w') :
    w' = w.setCheckpoint checkpoint := by
  obtain ⟨response, executed, same⟩ := ends_request_iff.mp ends
  cases same
  exact written_ok (some.inj executed)

variable {kind : ClaimKind} {done : Bool}

theorem ends_claimOnce (ends : (claimOnce owner kind podId).Ends (M := machine) oracle pid w (.ok done) w') :
    done = true ∧ w.claims kind podId = none ∧ w' = w.setClaim kind podId (some (some ⟨owner.tag, kind, podId⟩))
    ∨ done = false ∧ w.claims kind podId ≠ none ∧ w' = w := by
  unfold claimOnce at ends
  rw [bind_eq, ends_bind_iff] at ends
  obtain ⟨fresh, w₁, opened, rest⟩ := ends
  obtain ⟨_, _, executed, ended⟩ := ends_act_iff.mp opened
  obtain ⟨same, rfl⟩ := ends_pure_iff.mp ended
  cases same
  simp only [exec] at executed
  cases found : w.claims kind podId with
  | some file =>
    simp only [found] at executed
    cases executed
    obtain ⟨same, rfl⟩ := ends_pure_iff.mp rest
    cases same
    exact .inr ⟨rfl, by simp, rfl⟩
  | none =>
    simp only [found] at executed
    cases executed
    obtain ⟨response, w₂, wrote, last⟩ := ends_bind_iff.mp rest
    obtain ⟨_, _, executed, ended⟩ := ends_act_iff.mp wrote
    obtain ⟨same, rfl⟩ := ends_pure_iff.mp ended
    cases same
    cases response with
    | error error =>
      obtain ⟨_, _, -, raised⟩ := ends_bind_iff.mp last
      obtain ⟨same, -⟩ := ends_raise_iff.mp raised
      cases same
    | ok done =>
      obtain ⟨same, rfl⟩ := ends_pure_iff.mp last
      cases same
      refine .inl ⟨rfl, rfl, ?_⟩
      rw [written_ok (some.inj executed)]
      simp [setClaim]

theorem World.same_setClaim {file : Option (Option Claim)} (different : other ≠ podId) :
    w.Same (w.setClaim kind podId file) other := by
  refine ⟨rfl, ?_, rfl⟩
  unfold setClaim
  by_cases same : ClaimKind.terminate = kind
  · subst same
    simp only [update_self, update_of_ne different]
  · simp only [update_of_ne same]

theorem World.same_setCheckpoint (different : other ≠ podId)
    (named : checkpoint.podId = podId) : w.Same (w.setCheckpoint checkpoint) other :=
  ⟨update_of_ne (named ▸ different) _ _, rfl, rfl⟩

theorem ends_terminateOnce (ends : (terminateOnce owner podId).Ends (M := machine) oracle pid w (.ok done) w') :
    (∀ other, other ≠ podId → w.Same w' other) ∧ ∃ state, w.checkpoints podId =
    some state ∧ (state.terminateClaimed = false ∧ w.claims .terminate podId = none ∧ w'.terminations =
    podId :: w.terminations ∨ (state.terminateClaimed = true ∨ w.claims .terminate podId ≠ none) ∧ w' = w) := by
  unfold terminateOnce at ends
  obtain ⟨found, w₁, loaded, rest⟩ := ends_bind_iff.mp ends
  obtain ⟨same, rfl, identity⟩ := ends_load loaded
  rw [same] at rest
  cases found : w.checkpoints podId with
  | none =>
    rw [found] at rest
    obtain ⟨same, -⟩ := ends_raise_iff.mp rest
    cases same
  | some state =>
    rw [found] at rest identity
    obtain ⟨rfl, -⟩ := identity state rfl
    simp only at rest
    split_ifs at rest with claimed
    · obtain ⟨-, rfl⟩ := ends_pure_iff.mp rest
      exact ⟨fun other _ => .refl _ _, state, rfl, .inr ⟨.inl claimed, rfl⟩⟩
    obtain ⟨fresh, w₂, claiming, last⟩ := ends_bind_iff.mp rest
    clear rest
    rcases ends_claimOnce claiming with ⟨rfl, free, rfl⟩ | ⟨rfl, taken, same⟩
    · obtain ⟨⟨⟩, w₃, saved, rest⟩ := ends_bind_iff.mp last
      obtain ⟨response, w₄, asked, rest⟩ := ends_bind_iff.mp rest
      obtain ⟨_, _, executed, ended⟩ := ends_act_iff.mp asked
      obtain ⟨answered, rfl⟩ := ends_pure_iff.mp ended
      cases answered
      cases executed
      cases answer : oracle.terminated state.podId with
      | error error =>
        rw [answer] at rest
        obtain ⟨_, _, -, raised⟩ := ends_bind_iff.mp rest
        obtain ⟨same, -⟩ := ends_raise_iff.mp raised
        cases same
      | ok done =>
        rw [answer] at rest
        obtain ⟨⟨⟩, w₅, saved', rest⟩ := ends_bind_iff.mp rest
        obtain ⟨-, rfl⟩ := ends_pure_iff.mp rest
        rw [ends_save saved', ends_save saved]
        refine ⟨fun other different => ?_, state, rfl, .inl ⟨by simpa using claimed, free, rfl⟩⟩
        refine ⟨?_, ?_, count_cons_of_ne (Ne.symm different)⟩ <;>
          simp [setCheckpoint, setClaim, update_of_ne different]
    · obtain ⟨-, rfl⟩ := ends_pure_iff.mp last
      rw [same]
      exact ⟨fun other _ => .refl _ _, state, rfl, .inr ⟨.inr taken, rfl⟩⟩

theorem ends_releaseClaim (ends : (releaseClaim owner .terminate podId).Ends (M := machine) oracle pid w (.ok ()) w') :
    w' = w ∧ w.claims .terminate podId = none ∨ w' = w.setClaim .terminate podId none := by
  unfold releaseClaim at ends
  obtain ⟨found, w₁, asked, rest⟩ := ends_bind_iff.mp ends
  obtain ⟨_, _, executed, ended⟩ := ends_act_iff.mp asked
  obtain ⟨answered, rfl⟩ := ends_pure_iff.mp ended
  cases answered
  cases executed
  cases found : w.claims .terminate podId with
  | none =>
    rw [found] at rest
    obtain ⟨-, rfl⟩ := ends_pure_iff.mp rest
    exact .inl ⟨rfl, rfl⟩
  | some file =>
    rw [found] at rest
    cases file with
    | none =>
      obtain ⟨same, -⟩ := ends_raise_iff.mp rest
      cases same
    | some claim =>
      obtain ⟨_, w₂, checked, second⟩ := ends_bind_iff.mp rest
      obtain ⟨-, rfl⟩ := ends_ofExcept_iff.mp checked
      obtain ⟨existed, w₃, unlinked, last⟩ := ends_bind_iff.mp second
      obtain ⟨_, _, executed, ended⟩ := ends_act_iff.mp unlinked
      obtain ⟨answered, rfl⟩ := ends_pure_iff.mp ended
      cases answered
      cases executed
      simp only [found, isSome_some] at last
      obtain ⟨-, rfl⟩ := ends_pure_iff.mp last
      exact .inr rfl

theorem ends_reconcile (ends : (reconcile owner podId).Ends (M := machine) oracle pid w (.ok ()) w') :
    (∀ other, other ≠ podId → w.Same w' other)
    ∧ w'.terminations = w.terminations ∧ (w.Unrecorded podId → w'.Unrecorded podId ∧ (∃ state, w'.checkpoints podId =
    some state ∧ state.terminateClaimed = false) ∧ (w'.claims .terminate podId = none ↔ w.Released podId)) := by
  unfold reconcile at ends
  obtain ⟨found, w₁, loaded, rest⟩ := ends_bind_iff.mp ends
  obtain ⟨same, rfl, identity⟩ := ends_load loaded
  rw [same] at rest
  cases found : w.checkpoints podId with
  | none =>
    rw [found] at rest
    rw [ends_save rest]
    have new : (w.setCheckpoint (newCheckpoint owner podId true)).checkpoints podId =
        some (newCheckpoint owner podId true) := update_self ..
    refine ⟨fun other different => same_setCheckpoint different (by rfl), rfl, fun _ => ⟨?_, ⟨_, new, rfl⟩, ?_⟩⟩
    · intro state there
      cases new.symm.trans there
      rfl
    · refine ⟨.inl, fun released => released.resolve_right ?_⟩
      rintro ⟨state, there, -⟩
      cases found.symm.trans there
  | some state =>
    rw [found] at rest identity
    obtain ⟨rfl, -⟩ := identity state rfl
    simp only at rest
    split_ifs at rest with inProgress
    · obtain ⟨⟨⟩, w₂, saved, released⟩ := ends_bind_iff.mp rest
      have saved := ends_save saved
      have released := ends_releaseClaim released
      have free : w'.claims .terminate state.podId = none := by
        rcases released with ⟨rfl, free⟩ | rfl
        · exact free
        · simp [setClaim]
      have kept : w'.checkpoints = w₂.checkpoints ∧ w'.terminations = w₂.terminations := by
        rcases released with ⟨rfl, -⟩ | rfl <;> exact ⟨rfl, rfl⟩
      have now : w'.checkpoints state.podId =
          some { state with terminateClaimed := false, reconciledActiveOrphan := true } := by
        rw [kept.1, saved]
        exact update_self ..
      refine ⟨fun other different => ?_, ?_, fun unrecorded => ⟨?_, ⟨_, now, rfl⟩, ?_⟩⟩
      · rcases released with ⟨rfl, -⟩ | rfl <;> rw [saved]
        · exact same_setCheckpoint different (by rfl)
        · exact World.Same.trans (same_setCheckpoint different (by rfl)) (same_setClaim different)
      · rw [kept.2, saved]
        rfl
      · intro after there
        cases now.symm.trans there
        exact unrecorded state found
      · exact iff_of_true free (.inr ⟨state, found, inProgress.1⟩)
    · obtain ⟨-, rfl⟩ := ends_pure_iff.mp rest
      refine ⟨fun other _ => .refl _ _, rfl, fun unrecorded => ?_⟩
      have idle : state.terminateClaimed = false := by
        by_contra claimed
        refine inProgress ⟨by simpa using claimed, ?_⟩
        simp [unrecorded state found]
      refine ⟨unrecorded, ⟨state, found, idle⟩, .inl, fun released => released.resolve_right ?_⟩
      rintro ⟨other, there, claimed⟩
      cases found.symm.trans there
      rw [idle] at claimed
      cases claimed

def World.Terminates (w w' : World) (podId : String) : Prop :=
  w.terminations.count podId < w'.terminations.count podId

variable {w₁ : World}

section
variable (first : (reconcile owner podId).Ends (M := machine) oracle pid w (.ok ()) w₁)
include first

variable (second : (terminateOnce owner podId).Ends (M := machine) oracle pid w₁ (.ok done) w')
include second

theorem ends_orphan : (∀ other, other ≠ podId → w.Same w' other)
    ∧ (w.Unrecorded podId → (w.Released podId → w.Terminates w' podId) ∧ (¬ w.Released podId →
    w'.terminations.count podId = w.terminations.count podId ∧ w'.Unrecorded podId ∧ ¬ w'.Released podId)) := by
  obtain ⟨others, kept, ready⟩ := ends_reconcile first
  obtain ⟨others', state, found, ended⟩ := ends_terminateOnce second
  refine ⟨fun other different => (others other different).trans (others' other different), fun unrecorded => ?_⟩
  obtain ⟨unrecorded', ⟨state', found', idle⟩, free⟩ := ready unrecorded
  cases found.symm.trans found'
  constructor
  · intro released
    rcases ended with ⟨-, -, asked⟩ | ⟨taken | taken, -⟩
    · rw [World.Terminates, asked, kept, count_cons_self]
      exact Nat.lt_succ_self _
    · rw [idle] at taken
      cases taken
    · exact absurd (free.mpr released) taken
  · intro stuck
    have claimed := mt free.mp stuck
    rcases ended with ⟨-, free', -⟩ | ⟨-, rfl⟩
    · exact absurd free' claimed
    · refine ⟨by rw [kept], unrecorded', ?_⟩
      rintro (free' | ⟨other, there, known⟩)
      · exact claimed free'
      · cases found.symm.trans there
        rw [idle] at known
        cases known

theorem ends_orphan_count (other : String) : w.terminations.count other ≤ w'.terminations.count other := by
  obtain ⟨-, kept, -⟩ := ends_reconcile first
  obtain ⟨-, -, -, ⟨-, -, asked⟩ | ⟨-, rfl⟩⟩ := ends_terminateOnce second
  · rw [asked, kept]
    exact count_le_count_cons
  · rw [kept]

end

variable {pods : List Json} {ids terminated : List String}

theorem ends_cleanupPods (ends : (cleanupPods owner terminated pods).Ends (M := machine) oracle pid w (.ok ids) w')
    (podId : String) : w.terminations.count podId ≤ w'.terminations.count podId ∧ (w.Unrecorded podId →
    (w.Terminates w' podId ↔ w.Released podId ∧ ∃ pod ∈ pods, orphan owner pod = .ok (some podId))) := by
  induction pods generalizing w terminated with
  | nil =>
    obtain ⟨-, rfl⟩ := ends_pure_iff.mp ends
    exact ⟨le_rfl, fun _ => iff_of_false (lt_irrefl _) (by simp)⟩
  | cons pod pods ih =>
    unfold cleanupPods at ends
    obtain ⟨found, w₁, looked, rest⟩ := ends_bind_iff.mp ends
    obtain ⟨found', rfl⟩ := ends_ofExcept_iff.mp looked
    cases found with
    | none =>
      obtain ⟨le, iff⟩ := ih rest
      refine ⟨le, fun unrecorded => (iff unrecorded).trans ?_⟩
      simp [← found']
    | some target =>
      obtain ⟨⟨⟩, w₂, first, rest⟩ := ends_bind_iff.mp rest
      obtain ⟨done, w₃, second, rest⟩ := ends_bind_iff.mp rest
      obtain ⟨le, iff⟩ := ih rest
      have before := ends_orphan_count first second podId
      refine ⟨before.trans le, fun unrecorded => ?_⟩
      obtain ⟨others, here⟩ := ends_orphan first second
      by_cases same : podId = target
      · subst same
        obtain ⟨free, stuck⟩ := here unrecorded
        by_cases released : w₁.Released podId
        · refine iff_of_true (lt_of_lt_of_le (free released) le) ⟨released, pod, ?_, found'.symm⟩
          exact .head _
        · obtain ⟨none, unrecorded', stuck⟩ := stuck released
          have later := mt (iff unrecorded').mp fun both => stuck both.1
          refine iff_of_false ?_ fun both => released both.1
          rwa [World.Terminates, ← none]
      · have still := others podId same
        rw [World.Terminates, ← still.count]
        refine (iff (still.unrecorded unrecorded)).trans ?_
        rw [still.released]
        refine and_congr_right fun _ => ?_
        simp [← found', Ne.symm same]

structure ListedActive (owner : Owner) (pod : Dict) (podId : String) : Prop where
  tag : podOwnershipTag pod = .str owner.tag
  active : podStatus pod ≠ .str "EXITED" ∧ podStatus pod ≠ .str "TERMINATED"
  named : Dict.get pod "id" = some (.str podId)

variable {pod : Json}

theorem orphan_some (taken : orphan owner pod = .ok (some podId)) :
    ∃ fields, pod = .obj fields ∧ podOwnershipTag fields = .str owner.tag ∧
      Dict.get fields "id" = some (.str podId) ∧ validId podId = true := by
  unfold orphan at taken
  split at taken
  · rename_i fields
    split_ifs at taken with foreign
    · cases taken
    · split at taken
      · cases taken
      · cases taken
      · split_ifs at taken
        · cases taken
        · split at taken
          · rename_i id named
            split_ifs at taken with valid
            · cases taken
              exact ⟨fields, rfl, not_not.mp foreign, named, valid⟩
            · cases taken
          · cases taken
  · cases taken

theorem ListedActive.orphan {pod : Dict} (listed : ListedActive owner pod podId) {found : Option String}
    (taken : orphan owner (.obj pod) = .ok found) (valid : validId podId = true) : found = some podId := by
  unfold Pods.orphan at taken
  simp only [listed.tag, ne_eq, not_true, if_false, listed.named, valid, if_true] at taken
  split at taken
  · cases taken
  · cases taken
  · rw [if_neg] at taken
    · cases taken
      rfl
    · rintro (exited | terminated)
      · exact listed.active.1 exited
      · exact listed.active.2 terminated

theorem exists_orphan (ends : (cleanupPods owner terminated pods).Ends (M := machine) oracle pid w (.ok ids) w')
    (member : pod ∈ pods) : ∃ found, orphan owner pod = .ok found := by
  induction pods generalizing w terminated with
  | nil => cases member
  | cons first pods ih =>
    unfold cleanupPods at ends
    obtain ⟨found, w₁, looked, rest⟩ := ends_bind_iff.mp ends
    obtain ⟨found', rfl⟩ := ends_ofExcept_iff.mp looked
    rcases mem_cons.mp member with rfl | later
    · exact ⟨found, found'.symm⟩
    · cases found with
      | none => exact ih rest later
      | some target =>
        obtain ⟨⟨⟩, w₂, -, second⟩ := ends_bind_iff.mp rest
        obtain ⟨done, w₃, -, third⟩ := ends_bind_iff.mp second
        exact ih third later

/-- Whatever calls, failures and crashes a history consists of: the next cleanup that returns terminates a listed
pod of its owner that is not recorded as terminated, exactly if no claim on its termination is left over that its
checkpoint does not know of, and its id is one that has a checkpoint. -/
theorem cleanup_terminates_iff (owner : Owner) : ∀ c : Config machine Error,
    Reaches (calls owner) anyStep (initial empty) c → ∀ (oracle : Oracle) (pid : ℕ) (pods : List Json)
    (ids : List String) (w' : World), oracle.listed = .ok pods → (cleanupOrphans owner).Ends
    oracle pid c.world (.ok ids) w' → ∀ (pod : Dict) (podId : String), .obj pod ∈ pods → ListedActive owner pod podId →
    c.world.Unrecorded podId → (c.world.Terminates w' podId ↔ validId podId = true ∧ c.world.Released podId) := by
  intro c _ oracle pid pods ids w' lists ends pod podId member listed unrecorded
  unfold cleanupOrphans at ends
  obtain ⟨pods', w₁, asked, swept⟩ := ends_bind_iff.mp ends
  obtain ⟨response, executed, answered⟩ := ends_request_iff.mp asked
  cases executed
  cases answered.trans lists
  rw [(ends_cleanupPods swept podId).2 unrecorded, and_comm]
  refine and_congr_left fun _ => ⟨?_, fun valid => ?_⟩
  · rintro ⟨other, -, taken⟩
    obtain ⟨-, -, -, -, valid⟩ := orphan_some taken
    exact valid
  · obtain ⟨found, taken⟩ := exists_orphan swept member
    exact ⟨.obj pod, member, taken.trans (congrArg _ (listed.orphan taken valid))⟩

def sampleOwner : Owner := ⟨.ofList (replicate 64 'a'), by decide⟩

def samplePod : Dict :=
  [("id", .str "pod_123"), ("status", .str "RUNNING"),
    ("tags", .obj [(ownershipTagKey, .str sampleOwner.tag)])]

def sampleOracle : Oracle where
  failure := none
  created := .ok (.obj samplePod)
  operated := .ok .null
  terminated := fun _ => .ok ()
  listed := .ok [.obj samplePod]

theorem samplePod_listed : ListedActive sampleOwner samplePod "pod_123" :=
  ⟨by decide, by decide, by decide⟩

theorem exists_cleanup {test : World → Bool} (passed : ((cleanupOrphans owner).evaluate (M := machine)
    (fun _ => oracle) pid ⟨w, []⟩).any (fun ran => ran.1.isOk && test ran.2.world) = true) :
    ∃ ids w', (cleanupOrphans owner).Ends (M := machine) oracle pid w (.ok ids) w' ∧ test w' = true := by
  obtain ⟨⟨outcome, s'⟩, ran, passed⟩ := (any_eq_true _ _).mp passed
  obtain ⟨ok, passed⟩ := Bool.and_eq_true_iff.mp passed
  cases outcome with
  | error error => cases ok
  | ok ids => exact ⟨ids, s'.world, ends_of_evaluate ran, passed⟩

theorem cleanup_terminates_sample : ∃ ids w',
    (cleanupOrphans sampleOwner).Ends (M := machine) sampleOracle 0 empty (.ok ids) w' ∧
      empty.Terminates w' "pod_123" := by
  have passed : ((cleanupOrphans sampleOwner).evaluate (M := machine) (fun _ => sampleOracle) 0
      ⟨empty, []⟩).any (fun ran => ran.1.isOk && true) = true := by decide
  obtain ⟨ids, w', ends, -⟩ := @exists_cleanup _ _ _ _ (fun _ => true) passed
  refine ⟨ids, w', ends, ?_⟩
  exact (cleanup_terminates_iff sampleOwner (initial empty) .refl sampleOracle 0 [.obj samplePod] ids w'
    rfl ends samplePod "pod_123" (mem_singleton.mpr rfl) samplePod_listed (fun _ found => by cases found)).mpr
    ⟨by decide, .inl rfl⟩

def sampleHistory : List (Move machine Error) :=
  .spawn (run sampleOwner (.obj [])).discard :: (replicate 9 (.perform 0 sampleOracle) ++ [.crash 0])

theorem sampleHistory_calls : ∀ m ∈ sampleHistory, m.calls ⊆ calls sampleOwner := by
  intro m member
  rcases mem_cons.mp member with rfl | member
  · rintro _ rfl
    exact .inl (.inl ⟨_, rfl⟩)
  · rcases mem_append.mp member with performed | crashed
    · obtain rfl := eq_of_mem_replicate performed
      exact Set.empty_subset _
    · obtain rfl := mem_singleton.mp crashed
      exact Set.empty_subset _

theorem orphan_passed_over : ∃ c : Config machine Error,
    Reaches (calls sampleOwner) anyStep (initial empty) c ∧
    (∃ state, c.world.checkpoints "pod_123" = some state ∧ state.terminated = false) ∧
    ListedActive sampleOwner samplePod "pod_123" ∧
    ∃ ids w', (cleanupOrphans sampleOwner).Ends (M := machine) sampleOracle 1 c.world (.ok ids) w' ∧
      w'.terminations = [] := by
  have passed : ((initial empty).simulate (fun _ _ => true) sampleHistory).any (fun c =>
      (c.world.checkpoints "pod_123").any (fun state => !state.terminated) &&
        ((cleanupOrphans sampleOwner).evaluate (M := machine) (fun _ => sampleOracle) 1 ⟨c.world, []⟩).any
          (fun ran => ran.1.isOk && decide (ran.2.world.terminations = []))) = true := by
    decide
  obtain ⟨c, reached, holds⟩ := exists_reaches (fun _ _ _ => trivial) sampleHistory_calls passed
  obtain ⟨unrecorded, cleaned⟩ := Bool.and_eq_true_iff.mp holds
  obtain ⟨state, found, running⟩ := (any_eq_true _ _).mp unrecorded
  obtain ⟨ids, w', ends, none⟩ := @exists_cleanup _ _ _ _ (fun w => decide (w.terminations = [])) cleaned
  exact ⟨c, reached, ⟨state, found, by simpa using running⟩, samplePod_listed, ids, w', ends, of_decide_eq_true none⟩

end VideoPoster.Pods
