import VideoPoster.Revision.Registry

/-!
# Supersession is closed under dependency
-/

namespace VideoPoster.Revision
open Python Tables Paths Table Receipt

namespace Registry
variable (artifacts : Registry)

def DependsOn (artifactId dependency : String) : Prop :=
  ∃ receipt ∈ artifacts, receipt.artifactId = artifactId ∧ dependency ∈ receipt.dependsOn

def Falls (artifactId : String) (receipt : Receipt) : Prop :=
  receipt.status = .active ∧ Relation.ReflTransGen artifacts.DependsOn receipt.artifactId artifactId

structure RejectedTo (artifactId reason : String) (after : Registry) : Prop where
  known : ∀ other, after.find? other = none ↔ artifacts.find? other = none
  falls : ∀ receipt ∈ artifacts, artifacts.Falls artifactId receipt →
    after.find? receipt.artifactId = some (receipt.rejected reason)
  stays : ∀ receipt ∈ artifacts, ¬ artifacts.Falls artifactId receipt →
    after.find? receipt.artifactId = some receipt

structure Closed : Prop where
  active : ∀ receipt ∈ artifacts, receipt.status = .active → ∀ other ∈ artifacts,
    Relation.TransGen artifacts.DependsOn receipt.artifactId other.artifactId → other.status = .active
  acyclic : ∀ artifactId, ¬ Relation.TransGen artifacts.DependsOn artifactId artifactId
  single : ∀ receipt ∈ artifacts, ∀ left ∈ artifacts, ∀ right ∈ artifacts,
    left.supersedes = some receipt.artifactId → right.supersedes = some receipt.artifactId → left = right
  named : ∀ receipt ∈ artifacts, ∀ successor, receipt.supersededBy = some successor ↔
    ∃ other ∈ artifacts, other.artifactId = successor ∧ other.supersedes = some receipt.artifactId
  rejects : ∀ receipt ∈ artifacts, receipt.status = .active → ∀ reason, blank reason = false →
    ∃ after, artifacts.reject receipt.artifactId reason = .ok after ∧
      artifacts.RejectedTo receipt.artifactId reason after

end Registry

inductive Call
  | register (request : Registration)
  | reject (artifactId reason : String)

def Call.apply (artifacts : Registry) : Call → Result Registry
  | register request => artifacts.register request
  | reject artifactId reason => artifacts.reject artifactId reason

def step (artifacts : Registry) (call : Call) : Registry := (call.apply artifacts).toOption.getD artifacts

def run (calls : List Call) : Registry := calls.foldl step .empty

def Call.Careful (artifacts : Registry) : Call → Prop
  | register request => ∀ after, artifacts.register request = .ok after →
      (∀ dependency ∈ request.dependsOn, ∀ receipt ∈ artifacts.find? dependency, receipt.status = .active) ∧
      ∀ prior ∈ request.supersedes, ∀ receipt ∈ artifacts.find? prior, receipt.supersededBy = none
  | reject _ _ => True

structure Registry.Known (artifacts : Registry) : Prop where
  named : ∀ receipt ∈ artifacts, receipt.artifactId ≠ ""
  dependency : ∀ receipt ∈ artifacts, ∀ dependency ∈ receipt.dependsOn, artifacts.find? dependency ≠ none
  prior : ∀ receipt ∈ artifacts, ∀ prior, receipt.supersedes = some prior → prior ≠ "" →
    artifacts.find? prior ≠ none
  acyclic : ∀ artifactId, ¬ Relation.TransGen artifacts.DependsOn artifactId artifactId

structure Registry.Linked (artifacts : Registry) : Prop where
  active : ∀ receipt ∈ artifacts, receipt.status = .active → ∀ dependency ∈ receipt.dependsOn,
    ∀ other ∈ artifacts.find? dependency, other.status = .active
  single : ∀ receipt ∈ artifacts, ∀ left ∈ artifacts, ∀ right ∈ artifacts,
    left.supersedes = some receipt.artifactId → right.supersedes = some receipt.artifactId → left = right
  named : ∀ receipt ∈ artifacts, ∀ successor, receipt.supersededBy = some successor ↔
    ∃ other ∈ artifacts, other.artifactId = successor ∧ other.supersedes = some receipt.artifactId

variable {artifacts after : Registry} {request : Registration} {artifactId reason : String}

structure Registered (artifacts : Registry) (request : Registration) (after : Registry) (receipt : Receipt) :
    Prop where
  same : receipt.artifactId = request.artifactId
  dependsOn : receipt.dependsOn = request.dependsOn
  active : receipt.status = .active
  supersedes : receipt.supersedes = request.supersedes
  unreplaced : receipt.supersededBy = none
  nonempty : receipt.artifactId ≠ ""
  fresh : artifacts.find? receipt.artifactId = none
  dependency : ∀ dependency ∈ receipt.dependsOn, artifacts.find? dependency ≠ none
  prior : ∀ prior ∈ receipt.supersedes, prior ≠ "" → ∃ old, artifacts.find? prior = some old
  mem : ∀ other, other ∈ after ↔ other = receipt ∨ ∃ old ∈ artifacts,
    old.supersededAs (receipt.supersedes.getD "") receipt.artifactId = other

theorem Registry.Known.supersededAs_empty (known : artifacts.Known) {receipt : Receipt}
    (member : receipt ∈ artifacts) (successor : String) : receipt.supersededAs "" successor = receipt :=
  if_neg (known.named receipt member)

theorem succeeded_mem (known : artifacts.Known) {supersedes : Option String}
    (accepted : artifacts.succeeded artifactId supersedes = .ok after) :
    (∀ other, other ∈ after ↔ ∃ old ∈ artifacts, old.supersededAs (supersedes.getD "") artifactId = other) ∧
    ∀ prior ∈ supersedes, prior ≠ "" → ∃ old, artifacts.find? prior = some old := by
  have unchanged (other : Receipt) : other ∈ artifacts ↔ ∃ old ∈ artifacts, old.supersededAs "" artifactId = other := by
    constructor
    · intro member
      exact ⟨other, member, known.supersededAs_empty member _⟩
    · rintro ⟨old, member, rfl⟩
      rwa [known.supersededAs_empty member]
  cases supersedes with
  | none =>
    cases accepted
    exact ⟨unchanged, by simp⟩
  | some prior =>
    unfold Registry.succeeded at accepted
    by_cases empty : prior = ""
    · subst empty
      cases accepted
      refine ⟨unchanged, ?_⟩
      rintro _ ⟨⟩ nonempty
      exact absurd rfl nonempty
    simp only [empty, if_false] at accepted
    cases found : artifacts.find? prior with
    | none =>
      rw [found] at accepted
      cases accepted
    | some old =>
      simp only [found] at accepted
      split_ifs at accepted
      cases accepted
      refine ⟨fun other => mem_map _, ?_⟩
      rintro _ ⟨⟩ -
      exact ⟨old, found⟩

theorem registered_of_ok (known : artifacts.Known) (accepted : artifacts.register request = .ok after) :
    ∃ receipt, Registered artifacts request after receipt := by
  obtain ⟨artifactId, file, revision, dependsOn, supersedes⟩ := request
  cases file with
  | none => cases accepted
  | some file =>
    obtain ⟨path, sha256⟩ := file
    simp only [Registry.register, bind_eq_ok, require_eq_ok, pure_eq_ok, exists_const] at accepted
    obtain ⟨⟨positive, nonempty⟩, fresh, dependency, middle, replaced, rfl⟩ := accepted
    obtain ⟨mem, prior⟩ := succeeded_mem known replaced
    refine ⟨{ artifactId, path, sha256, revision, dependsOn, status := .active, supersedes, supersededBy := none
              rejectionReason := none },
      ⟨rfl, rfl, rfl, rfl, rfl, nonempty, fresh, dependency, prior, fun other => ?_⟩⟩
    rw [mem_put, mem]
    refine or_congr_right ⟨And.left, fun there => ⟨there, ?_⟩⟩
    obtain ⟨old, member, rfl⟩ := there
    rw [supersededAs_artifactId]
    exact find?_eq_none.mp fresh old member

namespace Receipt

theorem supersededAs_fields (receipt : Receipt) (prior successor : String) :
    (receipt.supersededAs prior successor).dependsOn = receipt.dependsOn ∧ (receipt.supersededAs prior successor).status
    = receipt.status ∧ (receipt.supersededAs prior successor).supersedes = receipt.supersedes := by
  unfold supersededAs
  split_ifs <;> exact ⟨rfl, rfl, rfl⟩

end Receipt

theorem find?_of_mem {receipt : Receipt} (member : receipt ∈ artifacts) :
    artifacts.find? receipt.artifactId = some receipt := find?_eq_some.mpr ⟨member, rfl⟩

theorem exists_of_find?_ne_none {artifactId : String} (there : artifacts.find? artifactId ≠ none) :
    ∃ receipt ∈ artifacts, receipt.artifactId = artifactId := by
  obtain ⟨receipt, found⟩ := Option.ne_none_iff_exists'.mp there
  exact ⟨receipt, find?_eq_some.mp found⟩

theorem transGen_of_old {α : Type} {edges edges' : α → α → Prop} {old : α → Prop} (inside : ∀ node other, old node →
    edges' node other → edges node other) (into : ∀ node other, edges' node other → old other) {node other : α}
    (member : old node) (way : Relation.TransGen edges' node other) : Relation.TransGen edges node other := by
  induction way with
  | single edge => exact .single (inside _ _ member edge)
  | tail way edge ih =>
    refine ih.tail (inside _ _ ?_ edge)
    cases way with
    | single edge => exact into _ _ edge
    | tail _ edge => exact into _ _ edge

namespace Registered
variable {receipt : Receipt} (registered : Registered artifacts request after receipt)
include registered

theorem dependsOn_iff (artifactId dependency : String) : after.DependsOn artifactId dependency ↔
    artifacts.DependsOn artifactId dependency ∨ artifactId = receipt.artifactId ∧ dependency ∈ receipt.dependsOn := by
  constructor
  · rintro ⟨other, member, rfl, depends⟩
    rcases (registered.mem other).mp member with rfl | ⟨old, there, rfl⟩
    · exact .inr ⟨rfl, depends⟩
    · rw [(old.supersededAs_fields _ _).1] at depends
      exact .inl ⟨old, there, (old.supersededAs_artifactId _ _).symm ▸ rfl, depends⟩
  · rintro (⟨old, there, rfl, depends⟩ | ⟨rfl, depends⟩)
    · refine ⟨_, (registered.mem _).mpr (.inr ⟨old, there, rfl⟩), old.supersededAs_artifactId _ _, ?_⟩
      rwa [(old.supersededAs_fields _ _).1]
    · exact ⟨receipt, (registered.mem _).mpr (.inl rfl), rfl, depends⟩

theorem find?_ne_none {artifactId : String} (there : artifacts.find? artifactId ≠ none) :
    after.find? artifactId ≠ none := by
  obtain ⟨old, member, rfl⟩ := exists_of_find?_ne_none there
  intro absent
  exact find?_eq_none.mp absent _ ((registered.mem _).mpr (.inr ⟨old, member, rfl⟩))
    (old.supersededAs_artifactId _ _)

theorem known (before : artifacts.Known) : after.Known where
  named other member := by
    rcases (registered.mem other).mp member with rfl | ⟨old, there, rfl⟩
    · exact registered.nonempty
    · rw [supersededAs_artifactId]
      exact before.named old there
  dependency other member dependency depends := by
    apply registered.find?_ne_none
    rcases (registered.mem other).mp member with rfl | ⟨old, there, rfl⟩
    · exact registered.dependency dependency depends
    · rw [(old.supersededAs_fields _ _).1] at depends
      exact before.dependency old there dependency depends
  prior other member prior replaces nonempty := by
    apply registered.find?_ne_none
    rcases (registered.mem other).mp member with rfl | ⟨old, there, rfl⟩
    · obtain ⟨old, found⟩ := registered.prior prior replaces nonempty
      simp [found]
    · rw [(old.supersededAs_fields _ _).2.2] at replaces
      exact before.prior old there prior replaces nonempty
  acyclic artifactId cycle := by
    -- every edge ends in an old artifact, so a cycle is a cycle of the old lineage
    have into (node other : String) (edge : after.DependsOn node other) : artifacts.find? other ≠ none := by
      rcases (registered.dependsOn_iff node other).mp edge with ⟨old, there, -, depends⟩ | ⟨-, depends⟩
      · exact before.dependency old there other depends
      · exact registered.dependency other depends
    have inside (node other : String) (old : artifacts.find? node ≠ none) (edge : after.DependsOn node other) :
        artifacts.DependsOn node other := by
      refine ((registered.dependsOn_iff node other).mp edge).resolve_right ?_
      rintro ⟨rfl, -⟩
      exact old registered.fresh
    refine before.acyclic artifactId (transGen_of_old inside into ?_ cycle)
    cases cycle with
    | single edge => exact into _ _ edge
    | tail _ edge => exact into _ _ edge

theorem careful_iff (accepted : artifacts.register request = .ok after) : (Call.register request).Careful artifacts ↔
    (∀ dependency ∈ receipt.dependsOn, ∀ other ∈ artifacts.find? dependency, other.status = .active)
    ∧ ∀ prior ∈ receipt.supersedes, ∀ other ∈ artifacts.find? prior, other.supersededBy = none := by
  rw [registered.dependsOn, registered.supersedes]
  constructor
  · intro careful
    exact careful after accepted
  · intro both _ _
    exact both

theorem exists_find? {artifactId : String} {other : Receipt} (found : after.find? artifactId = some other)
    (old : artifactId ≠ receipt.artifactId) : ∃ before ∈ artifacts, before.artifactId = artifactId ∧
      before.supersededAs (receipt.supersedes.getD "") receipt.artifactId = other := by
  obtain ⟨member, rfl⟩ := find?_eq_some.mp found
  rcases (registered.mem other).mp member with rfl | ⟨before, there, rfl⟩
  · exact absurd rfl old
  · exact ⟨before, there, (before.supersededAs_artifactId _ _).symm, rfl⟩

omit registered in
theorem supersededBy_iff {old : Receipt} (member : old ∈ artifacts) (known : artifacts.Known) (successor : String)
    (unreplaced : ∀ prior ∈ receipt.supersedes, ∀ other ∈ artifacts.find? prior, other.supersededBy = none) :
    (old.supersededAs (receipt.supersedes.getD "") receipt.artifactId).supersededBy = some successor ↔
      old.supersededBy = some successor ∨
        receipt.artifactId = successor ∧ receipt.supersedes = some old.artifactId := by
  unfold supersededAs
  split_ifs with same
  · have replaced : receipt.supersedes = some old.artifactId := by
      cases found : receipt.supersedes with
      | none =>
        rw [found] at same
        exact absurd same (known.named old member)
      | some prior =>
        rw [found] at same
        exact congrArg some same.symm
    have none := unreplaced _ replaced old (find?_of_mem member)
    simp [none, replaced]
  · have other : receipt.supersedes ≠ some old.artifactId := by
      intro replaced
      rw [replaced] at same
      exact same rfl
    simp [other]

theorem linked (known : artifacts.Known) (before : artifacts.Linked)
    (active : ∀ dependency ∈ receipt.dependsOn, ∀ other ∈ artifacts.find? dependency, other.status = .active)
    (unreplaced : ∀ prior ∈ receipt.supersedes, ∀ other ∈ artifacts.find? prior, other.supersededBy = none) :
    after.Linked where
  active other member is dependency depends found there := by
    have late : dependency ≠ receipt.artifactId := by
      rintro rfl
      rcases (registered.mem other).mp member with rfl | ⟨old, there, rfl⟩
      · exact registered.dependency _ depends registered.fresh
      · rw [(old.supersededAs_fields _ _).1] at depends
        exact known.dependency old there _ depends registered.fresh
    obtain ⟨old, inside, rfl, rfl⟩ := registered.exists_find? there late
    rw [(old.supersededAs_fields _ _).2.1]
    rcases (registered.mem other).mp member with rfl | ⟨child, inside', rfl⟩
    · exact active _ depends old (find?_of_mem inside)
    · rw [(child.supersededAs_fields _ _).1] at depends
      rw [(child.supersededAs_fields _ _).2.1] at is
      exact before.active child inside' is _ depends old (find?_of_mem inside)
  single := by
    -- a new successor is the first one, and an old artifact does not replace a new one
    have fresh {old : Receipt} (inside : old ∈ artifacts) : old.supersedes ≠ some receipt.artifactId :=
      fun replaces => known.prior old inside _ replaces registered.nonempty registered.fresh
    have first {old : Receipt} (inside : old ∈ artifacts) {prior : Receipt} (there : prior ∈ artifacts)
        (new : receipt.supersedes = some prior.artifactId) : old.supersedes ≠ some prior.artifactId := by
      intro replaces
      have none := unreplaced _ new prior (find?_of_mem there)
      rw [(before.named prior there old.artifactId).mpr ⟨old, inside, rfl, replaces⟩] at none
      cases none
    have self : receipt.supersedes ≠ some receipt.artifactId := by
      intro replaces
      obtain ⟨old, found⟩ := registered.prior _ replaces registered.nonempty
      rw [registered.fresh] at found
      cases found
    intro prior priorMember left leftMember right rightMember replacesLeft replacesRight
    rcases (registered.mem prior).mp priorMember with rfl | ⟨oldPrior, insidePrior, rfl⟩
    · rcases (registered.mem left).mp leftMember with rfl | ⟨old, inside, rfl⟩
      · exact absurd replacesLeft self
      · rw [(old.supersededAs_fields _ _).2.2] at replacesLeft
        exact absurd replacesLeft (fresh inside)
    · rw [oldPrior.supersededAs_artifactId] at replacesLeft replacesRight
      rcases (registered.mem left).mp leftMember with rfl | ⟨old, inside, rfl⟩ <;>
        rcases (registered.mem right).mp rightMember with same | ⟨old', inside', rfl⟩
      · exact same.symm
      · rw [(old'.supersededAs_fields _ _).2.2] at replacesRight
        exact absurd replacesRight (first inside' insidePrior replacesLeft)
      · subst same
        rw [(old.supersededAs_fields _ _).2.2] at replacesLeft
        exact absurd replacesLeft (first inside insidePrior replacesRight)
      · rw [(old.supersededAs_fields _ _).2.2] at replacesLeft
        rw [(old'.supersededAs_fields _ _).2.2] at replacesRight
        rw [before.single oldPrior insidePrior old inside old' inside' replacesLeft replacesRight]
  named other member successor := by
    have outside (prior : String) : (∃ child ∈ after, child.artifactId = successor ∧ child.supersedes = some prior) ↔
        (∃ child ∈ artifacts, child.artifactId = successor ∧ child.supersedes = some prior) ∨
          receipt.artifactId = successor ∧ receipt.supersedes = some prior := by
      constructor
      · rintro ⟨child, there, same, replaces⟩
        rcases (registered.mem child).mp there with rfl | ⟨old, inside, rfl⟩
        · exact .inr ⟨same, replaces⟩
        · rw [(old.supersededAs_fields _ _).2.2] at replaces
          rw [old.supersededAs_artifactId] at same
          exact .inl ⟨old, inside, same, replaces⟩
      · rintro (⟨old, inside, same, replaces⟩ | ⟨same, replaces⟩)
        · refine ⟨_, (registered.mem _).mpr (.inr ⟨old, inside, rfl⟩), ?_, ?_⟩
          · rw [old.supersededAs_artifactId, same]
          · rw [(old.supersededAs_fields _ _).2.2, replaces]
        · exact ⟨receipt, (registered.mem _).mpr (.inl rfl), same, replaces⟩
    rw [outside]
    rcases (registered.mem other).mp member with rfl | ⟨old, inside, rfl⟩
    · rw [registered.unreplaced]
      refine iff_of_false (by simp) ?_
      rintro (⟨child, inside, -, replaces⟩ | ⟨-, replaces⟩)
      · exact known.prior child inside _ replaces registered.nonempty registered.fresh
      · obtain ⟨old, found⟩ := registered.prior _ replaces registered.nonempty
        rw [registered.fresh] at found
        cases found
    · rw [supersededBy_iff inside known successor unreplaced, before.named old inside,
        old.supersededAs_artifactId]

end Registered

end VideoPoster.Revision
