import VideoPoster.Harness.Moves

/-!
# A call makes moves and nothing else
-/

namespace VideoPoster.Harness
open Python Billing Interleaving Tables Program Control

variable {L : Libraries} {oracle : Oracle} {pid : ℕ} {w w₀ w₁ w' : World} {control control' : Control} {call : Call}

abbrev Stays {α : Type} (L : Libraries) (oracle : Oracle) (pid : ℕ) (K : World → Option Act → Prop)
    (program : Program α) (w : World) : Prop := Prog.Stays (M := machine L) oracle pid K program w

abbrev Ends {α : Type} (L : Libraries) (oracle : Oracle) (pid : ℕ) (program : Program α) (w : World)
    (outcome : Except Error α) (w' : World) : Prop :=
  program.Ends (M := machine L) oracle pid w outcome w'

/-! ## One action -/

section Rules
variable {α β : Type} {K : World → Option Act → Prop} {next : α → Program β}

variable (here : ∀ pending, K w pending)
include here

theorem stays_look {next : World → Program β}
    (rest : Stays L oracle pid K (next w) w) : Stays L oracle pid K (look >>= next) w := by
  refine .act (here _) fun w₁ response executed => ?_
  cases executed
  exact rest

theorem stays_ask {query : Query} {next : query.Res → Program β} (rest :
    Stays L oracle pid K (next (oracle.answer query)) w) : Stays L oracle pid K (ask query >>= next) w := by
  refine .act (here _) fun w₁ response executed => ?_
  cases executed
  exact rest

theorem stays_save {next : Unit → Program β} (rest :
    Stays L oracle pid K (next ()) (w.save control)) : Stays L oracle pid K (save control >>= next) w := by
  refine .act (here _) fun w₁ response executed => ?_
  cases executed
  exact rest

variable {path : Path}

theorem stays_write {document : Document} {next : Unit → Program β} (rest : Stays L oracle pid K (next ())
    (w.write path document)) : Stays L oracle pid K (write path document >>= next) w := by
  refine .act (here _) fun w₁ response executed => ?_
  cases executed
  exact rest

theorem stays_upload {next : Result Uploaded → Program β} (rest : Stays L oracle pid K
    (next oracle.uploaded) { w with uploads := w.uploads + 1 }) : Stays L oracle pid K (upload >>= next) w := by
  refine .act (here _) fun w₁ response executed => ?_
  cases executed
  exact rest

theorem stays_send {revision : ℕ} {kind : Kind} {next : Result ℤ → Program β}
    (rest : Stays L oracle pid K (next (oracle.sent kind)) { w with sent := ⟨revision, kind, (w.files.read? path).map
    L.sha256⟩ :: w.sent }) : Stays L oracle pid K (send revision kind path >>= next) w := by
  refine .act (here _) fun w₁ response executed => ?_
  cases executed
  exact rest

theorem stays_ofResult {result : Result α} (rest : ∀ x,
    result = .ok x → Stays L oracle pid K (next x) w) : Stays L oracle pid K (ofResult result >>= next) w :=
  Prog.Stays.check (here none) rest

variable {error : Error}

theorem stays_require {condition : Prop} [Decidable condition] {next : Unit → Program β}
    (rest : condition → Stays L oracle pid K (next ()) w) : Stays L oracle pid K (require condition error >>= next) w :=
  Prog.Stays.check (here none) fun _ ok => rest (require_eq_ok.mp ok)

theorem stays_load {next : Control → Program β} (rest : ∀ control, loaded L w =
    .ok control → Stays L oracle pid K (next control) w) : Stays L oracle pid K (load L >>= next) w := by
  refine stays_look here ?_
  exact .check (here none) rest

theorem stays_fresh {next : Identity → Program β}
    (rest : ∀ found, freshIdentity L w.files control.plan.predecessors path = .ok found →
    Stays L oracle pid K (next found) w) : Stays L oracle pid K (fresh L control path >>= next) w := by
  refine stays_look here ?_
  exact .check (here none) rest

theorem stays_pure {x : α} : Stays L oracle pid K (pure x : Program α) w :=
  .pure (here none)

theorem stays_raise :
    Stays L oracle pid K (.raise error : Program α) w := .raise (here none)

theorem stays_status : Stays L oracle pid K (status L) w :=
  stays_load here fun _ _ => stays_pure here

end Rules

theorem loaded_control {w : World} {control : Control} (valid : loaded L w = .ok control) :
    w.control = some control := by
  unfold loaded at valid
  cases held : w.control with
  | none => simp [held] at valid
  | some found =>
    simp only [held, bind_eq_ok, pure_eq_ok] at valid
    obtain ⟨_, _, _, _, _, _, _, _, rfl⟩ := valid
    rfl

variable {files : Files}

variable {path : Path}

theorem fileSha_eq_ok {sha : Hash} :
    fileSha L files path = .ok sha ↔ ∃ document, files.read? path = some document ∧ L.sha256 document = sha := by
  unfold fileSha
  cases found : files.read? path <;> simp

variable {kind : Kind} {artifact : Identity}

theorem artifact_eq_ok : control.artifact kind = .ok artifact ↔ control.artifacts.get kind = some artifact := by
  unfold Control.artifact
  cases found : control.artifacts.get kind <;> simp

/-! ## Actions that change nothing -/

def Act.Still : Act → Prop
  | .look => True
  | .ask _ => True
  | _ => False

theorem still_keeps : (machine L).Keeps Act.Still := by
  intro oracle pid w w' action response still executed
  cases action with
  | look =>
    cases executed
    rfl
  | ask query =>
    cases executed
    rfl
  | save _ => cases still
  | write _ _ => cases still
  | send _ _ _ => cases still
  | upload => cases still

section Still
variable {α β : Type} {kind : Act → Prop} {K : World → Option Act → Prop}

theorem only_each {items : List α} {body : α → Program Unit} (each : ∀ item ∈ items, (body item).Only kind) :
    (Program.each items body).Only kind := by
  induction items with
  | nil => trivial
  | cons item rest ih =>
    refine (each item (.head _)).bind fun _ => ?_
    exact ih fun other member => each other (.tail _ member)

theorem only_ofResult {result : Result α} : (ofResult result).Only kind := .ofExcept result

theorem only_checkFreshness {paths : List Path} : (checkFreshness L control paths).Only Act.Still := by
  refine only_each fun path _ => ?_
  have fresh : (fresh L control path).Only Act.Still := ⟨trivial, fun _ => only_ofResult⟩
  exact fresh.bind fun _ => trivial

theorem stays_still {program : Program α} {next : α → Program β}
    (only : program.Only Act.Still) (here : ∀ pending, K w pending) (rest : ∀ x, Ends L oracle pid program w (.ok x)
    w → Stays L oracle pid K (next x) w) : Stays L oracle pid K (program >>= next) w := by
  have same : ∀ {w' : World}, w' = w → ∀ {w'' : World} {action : Act} {response : action.Res},
      Act.Still action → (machine L).exec oracle pid w' action = some (w'', response) → w'' = w := by
    intro w' known w'' action response still executed
    exact (still_keeps still executed).trans known
  have stop : Prog.Stays (M := machine L) oracle pid (fun w' _ => w' = w) program w :=
    only.stays (fun still executed known => same known still executed) rfl
  refine .bind (stop.mono fun w' pending known => known ▸ here pending) fun x w₁ ends => ?_
  obtain rfl : w₁ = w := stop _ _ ends.stops
  exact rest x ends

end Still

/-! ## Plans, decisions and rejections -/

def Reached (L : Libraries) (call : Call) (w₀ w : World) (_ : Option Act) : Prop := Moves L call w₀ w

theorem reached_step (made : Moves L call w₀ w) (move : Move L call w w') : ∀ pending, Reached L call w₀ w' pending :=
  fun _ => made.tail move

theorem reached_self : ∀ pending, Reached L call w w pending := fun _ => .refl

theorem briefRevision_pos {rejected : List Predecessor} {brief : Option SuccessorBrief} {revision : ℕ}
    (counted : briefRevision rejected brief = .ok revision) : 0 < revision := by
  cases brief with
  | none =>
    cases counted
    exact Nat.one_pos
  | some brief =>
    simp only [briefRevision, bind_eq_ok, require_eq_ok, pure_eq_ok] at counted
    obtain ⟨_, ⟨-, -, least, -⟩, rfl⟩ := counted
    omega

theorem only_readPredecessors {name : Option String} : (readPredecessors name).Only Act.Still := by
  cases name with
  | none => trivial
  | some name =>
    refine ⟨trivial, fun answer => ?_⟩
    refine only_ofResult.bind fun rejected => ?_
    refine only_ofResult.bind fun _ => ?_
    refine ⟨trivial, fun found => ?_⟩
    exact only_ofResult.bind fun brief => trivial

variable {α : Type}

theorem stays_fixtures {request : PlanRequest} {next : Unit → Program α} {fixtures : List (String × Document)}
    (none : w.control = none) (made : Moves L (.createPlan request) w₀ w) (rest : ∀ w', w'.control = .none →
    Moves L (.createPlan request) w₀ w' → Stays L oracle pid (Reached L (.createPlan request) w₀) (next ()) w') :
    Stays L oracle pid (Reached L (.createPlan request) w₀)
    ((each fixtures fun fixture => write (.other fixture.1) fixture.2) >>= next) w := by
  induction fixtures generalizing w with
  | nil => exact rest w none made
  | cons fixture others ih =>
    refine stays_write (fun _ => made) ?_
    exact ih none (made.tail (.fixture none))

theorem stays_createPlan (request : PlanRequest) :
    Stays L oracle pid (Reached L (.createPlan request) w) (createPlan L request) w := by
  unfold createPlan
  refine stays_look reached_self ?_
  refine stays_require reached_self fun none => ?_
  have absent : w.control = .none := Option.isNone_iff_eq_none.mp none
  refine stays_require reached_self fun _ => ?_
  refine stays_require reached_self fun _ => ?_
  refine stays_require reached_self fun _ => ?_
  refine stays_still only_readPredecessors reached_self fun read _ => ?_
  refine stays_ofResult reached_self fun revision counted => ?_
  refine stays_ask reached_self ?_
  refine stays_ofResult reached_self fun prepared _ => ?_
  refine stays_fixtures absent .refl fun w' absent made => ?_
  refine stays_still (only_each fun _ _ => ?_) (fun _ => made) fun _ _ => ?_
  · exact .bind (⟨trivial, fun _ => only_ofResult⟩ : (Program.fresh L _ _).Only Act.Still) fun _ => trivial
  · refine stays_save (fun _ => made) ?_
    exact stays_status (reached_step made (.planned absent rfl (briefRevision_pos counted)))

theorem stays_approvePlan (planHash reviewer : String) :
    Stays L oracle pid (Reached L (.approvePlan planHash reviewer) w) (approvePlan L planHash reviewer) w := by
  unfold approvePlan
  refine stays_load reached_self fun control valid => ?_
  refine stays_require reached_self fun exact => ?_
  obtain ⟨named, rfl⟩ := exact
  refine stays_require reached_self fun gate => ?_
  refine stays_save reached_self ?_
  exact stays_status (reached_step .refl (.planApproved (loaded_control valid) gate named))

theorem stays_reject (reason reviewer : String) (directives : List String) :
    Stays L oracle pid (Reached L (.reject reason reviewer directives) w) (reject L reason reviewer directives) w := by
  unfold reject
  refine stays_load reached_self fun control valid => ?_
  refine stays_require reached_self fun _ => ?_
  refine stays_require reached_self fun _ => ?_
  refine stays_look reached_self ?_
  refine stays_ofResult reached_self fun retired collects => ?_
  refine stays_save reached_self ?_
  exact stays_status (reached_step .refl (.rejected (loaded_control valid) collects rfl))

/-! ## Approvals -/

theorem only_makeReceipt {approver : String} : (makeReceipt L kind path approver).Only Act.Still := by
  refine ⟨trivial, fun w => ?_⟩
  refine only_ofResult.bind fun _ => ?_
  refine only_ofResult.bind fun _ => ?_
  exact ⟨trivial, fun _ => trivial⟩

theorem stays_recordApproval {sha reviewer : String}
    {decided : Control} {next : Unit → Program α} (held : w.control = some control) (gate : control.status = kind.gate)
    (plan : decided.plan = control.plan) (rest : ∀ w', w'.control = some control → Moves L (.approve kind sha reviewer)
    w w' → Stays L oracle pid (Reached L (.approve kind sha reviewer) w) (next ()) w') : Stays L oracle pid (Reached
    L (.approve kind sha reviewer) w) (recordApproval L decided kind artifact reviewer >>= next) w := by
  have file : decided.approvalFile kind = control.approvalFile kind := by
    simp only [approvalFile, file, plan]
  have timed : ∀ plain : kind ≠ .visualFreeze, Stays L oracle pid (Reached L (.approve kind sha reviewer) w) ((do
        let receipt ← makeReceipt L kind artifact.path reviewer
        require (receipt.artifactSha256 = artifact.sha256)
          (.value "approval receipt differs from frozen artifact")
        saveApprovalReceipt L (decided.approvalFile kind) receipt) >>= next) w := by
    intro plain
    rw [file]
    simp only [Prog.bind_eq, Prog.bind_assoc]
    refine stays_still only_makeReceipt reached_self fun receipt _ => ?_
    refine stays_require reached_self fun _ => ?_
    unfold saveApprovalReceipt
    simp only [Prog.bind_eq, Prog.bind_assoc]
    refine stays_look reached_self ?_
    refine stays_ofResult reached_self fun _ _ => ?_
    cases found : w.files.read? (control.approvalFile kind) with
    | some document =>
      simp only [Prog.bind_assoc]
      refine stays_ofResult reached_self fun _ _ => ?_
      refine stays_require reached_self fun _ => ?_
      exact rest w held .refl
    | none =>
      have made : Moves L (.approve kind sha reviewer) w (w.write (control.approvalFile kind) (.approval receipt)) :=
        .tail .refl (.receipt held gate plain found)
      simp only [Prog.bind_assoc]
      refine stays_write reached_self ?_
      refine stays_look (fun _ => made) ?_
      refine stays_ofResult (fun _ => made) fun _ _ => ?_
      refine stays_require (fun _ => made) fun _ => ?_
      exact rest _ held made
  cases kind with
  | visualFreeze =>
    unfold recordApproval
    rw [file]
    refine stays_write reached_self ?_
    exact rest _ held (.tail .refl (.sheetReceipt held gate))
  | thumbnail => exact timed (by decide)
  | video => exact timed (by decide)

theorem stays_approve (kind : Kind) (artifactHash reviewer : String) : Stays
    L oracle pid (Reached L (.approve kind artifactHash reviewer) w) (approve L kind artifactHash reviewer) w := by
  unfold approve
  refine stays_load reached_self fun control valid => ?_
  have held := loaded_control valid
  refine stays_require reached_self fun gate => ?_
  refine stays_ofResult reached_self fun artifact found => ?_
  have frozen := artifact_eq_ok.1 found
  refine stays_require reached_self fun exact => ?_
  obtain ⟨-, rfl⟩ := exact
  refine stays_look reached_self ?_
  refine stays_ofResult reached_self fun sha _ => ?_
  refine stays_require reached_self fun _ => ?_
  refine stays_recordApproval held gate rfl fun w' held made => ?_
  have decided (plain : kind ≠ .video) : Stays L oracle pid (Reached L (.approve kind artifact.sha256 reviewer) w)
      (save (control.decide kind artifact.sha256 reviewer) >>= fun _ => status L) w' := by
    refine stays_save (fun _ => made) ?_
    exact stays_status (reached_step made (.approved held gate plain frozen))
  cases kind with
  | visualFreeze => exact decided (by decide)
  | thumbnail => exact decided (by decide)
  | video =>
    show Stays L oracle pid _ (freezePublicationPackage L
      (control.decide .video artifact.sha256 reviewer) >>= fun control =>
        save control >>= fun _ => status L) w'
    unfold freezePublicationPackage
    simp only [Prog.bind_eq, Prog.bind_assoc]
    refine stays_look (fun _ => made) ?_
    refine stays_ofResult (fun _ => made) fun package bound => ?_
    refine stays_require (fun _ => made) fun same => ?_
    refine stays_write (fun _ => made) ?_
    have wrote := made.tail (Move.package held gate same)
    refine stays_look (fun _ => wrote) ?_
    refine stays_require (fun _ => wrote) fun _ => ?_
    refine stays_ofResult (fun _ => wrote) fun sha hashed => ?_
    refine stays_require (fun _ => wrote) fun _ => ?_
    have bytes : sha = L.sha256 (.package package) := by
      have there : (w'.write control.packageFile (.package package)).files.read? control.packageFile =
          some (.package package) := Files.read?_write_self _ _ _
      exact (fileSha_eq_ok.1 hashed).elim fun _ found => by cases there.symm.trans found.1; exact found.2.symm
    subst bytes
    refine stays_save (fun _ => wrote) ?_
    exact stays_status (reached_step wrote (.approvedVideo held gate frozen bound rfl))

/-! ## Publication -/

variable {u : Unit}

theorem allMediaApproved_ok {wanted : List Kind} (passed : allMediaApproved L control files wanted = .ok u) :
    ∀ kind ∈ wanted, mediaApproved L control files kind = .ok () := by
  induction wanted with
  | nil => simp
  | cons kind rest ih =>
    simp only [allMediaApproved, bind_eq_ok] at passed
    obtain ⟨_, first, others⟩ := passed
    intro other member
    rcases List.mem_cons.mp member with rfl | later
    · exact first
    · exact ih others other later

theorem allApproved_of_ok (passed : allMediaApproved L control files kinds = .ok u) : control.AllApproved := by
  intro kind
  have member : kind ∈ kinds := by cases kind <;> decide
  have media := allMediaApproved_ok passed kind member
  simp only [mediaApproved, bind_eq_ok, artifact_eq_ok] at media
  obtain ⟨artifact, frozen, decided⟩ := media
  cases found : control.approvals.get kind with
  | none => simp [found] at decided
  | some approval =>
    simp only [found, bind_eq_ok, require_eq_ok] at decided
    obtain ⟨_, ⟨same, plan⟩, -⟩ := decided
    exact ⟨artifact, approval, frozen, rfl, same, plan⟩

theorem stays_authorizePublication (command reviewer : String) : Stays L
    oracle pid (Reached L (.authorizePublication command reviewer) w) (authorizePublication L command reviewer) w := by
  unfold authorizePublication
  refine stays_load reached_self fun control valid => ?_
  have held := loaded_control valid
  refine stays_require reached_self fun due => ?_
  obtain ⟨gate, -⟩ := due
  refine stays_require reached_self fun _ => ?_
  refine stays_look reached_self ?_
  refine stays_ofResult reached_self fun _ media => ?_
  refine stays_ofResult reached_self fun thumbnail _ => ?_
  refine stays_ofResult reached_self fun video _ => ?_
  refine stays_ofResult reached_self fun metadata _ => ?_
  refine stays_ofResult reached_self fun _ _ => ?_
  refine stays_ask reached_self ?_
  refine stays_require reached_self fun _ => ?_
  refine stays_write reached_self ?_
  refine stays_look (fun _ => .tail .refl (.authorization held gate)) ?_
  refine stays_require (fun _ => .tail .refl (.authorization held gate)) fun _ => ?_
  refine stays_save (fun _ => .tail .refl (.authorization held gate)) ?_
  exact stays_status (reached_step (.tail .refl (.authorization held gate))
    (.authorized held gate (allApproved_of_ok media)))

def PublicationStop (L : Libraries) (command : String) (w w' : World) (pending : Option Act) : Prop :=
  Moves L (.publish command) w w' ∨ Torn L (.publish command) w w' pending

variable {command : String}

theorem stop_of_moves (made : Moves L (.publish command) w w') :
    ∀ pending, PublicationStop L command w w' pending := fun _ => .inl made

variable {K : World → Option Act → Prop}

theorem stays_requireReadback {videoId : String} {next : Readback → Program α} (here : ∀ pending, K w pending)
    (rest : ∀ readback, oracle.answer (.readback videoId) = .ok readback → readback.videoId = some videoId →
    Stays L oracle pid K (next readback) w) : Stays L oracle pid K (requireReadback videoId >>= next) w := by
  unfold requireReadback
  simp only [Prog.bind_eq, Prog.bind_assoc]
  refine stays_ask here ?_
  refine stays_ofResult here fun readback answered => ?_
  refine stays_require here fun binds => ?_
  exact rest readback answered binds

variable {intent : PublicationIntent}

variable {next : Published → Program α}

theorem stays_recoverUpload {document : Document} (here : ∀ pending, K w pending) (rest : ∀ video,
    Stays L oracle pid K (next video) w) : Stays L oracle pid K (recoverUpload intent document >>= next) w := by
  cases document with
  | intent existing =>
    unfold recoverUpload
    simp only [Prog.bind_eq, Prog.bind_assoc]
    refine stays_require here fun _ => ?_
    cases existing.videoId.filter fun videoId => videoId ≠ "" with
    | none => exact stays_raise here
    | some videoId =>
      simp only [Prog.bind_assoc]
      exact stays_requireReadback here fun readback _ _ => rest _
  | _ => exact stays_raise here

theorem stays_settleUpload {answer : Result Uploaded} (held : w'.control = some control) (gate : control.status =
    .readyForPublication) (made : Moves L (.publish command) w w') (rest : ∀ video w'', w''.control = some control →
    Moves L (.publish command) w w'' → Stays L oracle pid (PublicationStop L command w) (next video) w'') : Stays
    L oracle pid (PublicationStop L command w) (settleUpload control.intentFile intent answer >>= next) w' := by
  have settled (intent : PublicationIntent) : Moves L (.publish command) w
      (w'.write control.intentFile (.intent intent)) := made.tail (.intent held gate)
  cases answer with
  | error error =>
    refine stays_write (stop_of_moves made) ?_
    exact stays_raise (stop_of_moves (settled _))
  | ok uploaded =>
    cases known : accepted uploaded with
    | none =>
      simp only [settleUpload, known]
      refine stays_write (stop_of_moves made) ?_
      exact stays_raise (stop_of_moves (settled _))
    | some ids =>
      simp only [settleUpload, known, Prog.bind_eq, Prog.bind_assoc]
      refine stays_write (stop_of_moves made) ?_
      refine stays_requireReadback (stop_of_moves (settled _)) fun readback _ _ => ?_
      exact rest _ _ held (settled _)

theorem stays_firstUpload (held : w.control = some control)
    (gate : control.status = .readyForPublication) (rest : ∀ video w', w'.control =
    some control → Moves L (.publish command) w w' → Stays L oracle pid (PublicationStop L command w) (next video) w') :
    Stays L oracle pid (PublicationStop L command w) (firstUpload control.intentFile intent >>= next) w := by
  unfold firstUpload
  simp only [Prog.bind_eq, Prog.bind_assoc]
  have wrote : Moves L (.publish command) w (w.write control.intentFile (.intent intent)) :=
    .tail .refl (.intent held gate)
  refine stays_write (stop_of_moves .refl) ?_
  refine stays_upload (stop_of_moves wrote) ?_
  refine stays_settleUpload held gate (wrote.tail (.uploaded held gate)) fun video w' held' made => ?_
  exact rest video w' held' made

variable {inputs : PublicationInputs}

theorem stays_recordPublication {video : Published} (held : w'.control = some control)
    (gate : control.status = .readyForPublication) (made : Moves L (.publish command) w w') :
    Stays L oracle pid (PublicationStop L command w) (recordPublication L control inputs intent video) w' := by
  unfold recordPublication
  refine stays_write (stop_of_moves made) ?_
  have recorded : Moves L (.publish command) w
      (w'.write control.receiptFile (.published (receiptOf intent video))) := made.tail (.published held gate)
  refine .act (stop_of_moves recorded _) fun w₁ response executed => ?_
  cases executed
  refine .act (.inr ⟨w'.write control.receiptFile _, control, _, held, gate, recorded, rfl, rfl⟩) fun w₁ response executed => ?_
  cases executed
  exact stays_pure (stop_of_moves (recorded.tail (.recorded held gate)))

theorem publicationInputs_status (checked : publicationInputs L control files = .ok inputs) :
    control.status = .readyForPublication := by
  simp only [publicationInputs, bind_eq_ok, require_eq_ok] at checked
  obtain ⟨_, gate, -⟩ := checked
  exact gate

theorem stays_publish (command : String) : Stays L oracle pid (PublicationStop L command w) (publish L command) w := by
  unfold publish
  refine stays_load (stop_of_moves .refl) fun control valid => ?_
  have held := loaded_control valid
  refine stays_require (stop_of_moves .refl) fun _ => ?_
  refine stays_look (stop_of_moves .refl) ?_
  refine stays_ofResult (stop_of_moves .refl) fun inputs checked => ?_
  have gate := publicationInputs_status checked
  refine stays_ask (stop_of_moves .refl) ?_
  refine stays_ofResult (stop_of_moves .refl) fun _ _ => ?_
  refine stays_require (stop_of_moves .refl) fun _ => ?_
  cases w.files.read? control.intentFile with
  | none =>
    exact stays_firstUpload held gate fun video w' held made => stays_recordPublication held gate made
  | some existing =>
    exact stays_recoverUpload (stop_of_moves .refl) fun video => stays_recordPublication held gate .refl

end VideoPoster.Harness
