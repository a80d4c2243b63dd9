import VideoPoster.Executor.Data
import VideoPoster.Interleaving.RelyGuarantee

/-!
# `live`: the FAL and RunPod adapters
-/

namespace VideoPoster.Live
open Python Executor Interleaving Function Dict Option

abbrev Bytes := List UInt8

/-! ## Media -/

structure Image where
  format : String
  mode : String
  width : ℕ
  height : ℕ

structure MediaStream where
  codecType : String
  width : Option ℕ
  height : Option ℕ

/-- The libraries that the adapters call: the two decoders, which may reject a file, and
`Decimal(str(number))` for a number of a response. -/
structure Libraries where
  image : Bytes → Option Image
  streams : Bytes → Option (List MediaStream)
  decimal : ℚ → Decimal

inductive Adapter where
  | fal | runPod

def Adapter.suffix : Adapter → String
  | .fal => ".png"
  | .runPod => ".mp4"

section
variable (L : Libraries)

def validateImage (bytes : Bytes) : Result Image :=
  match L.image bytes with
  | none => .error (.value "image validation failed")
  | some image => do
    require (image.format = "PNG" ∧ image.mode = "RGB") (.value "image contract requires RGB PNG")
    pure image

def validateVideo (bytes : Bytes) : Result Unit :=
  match L.streams bytes with
  | none => .error (.value "video validation failed")
  | some streams => do
    let videos := streams.filter fun stream => stream.codecType = "video"
    require (videos.length = 1 ∧
        ∀ stream ∈ videos, (stream.width, stream.height) = (some 1280, some 720))
      (.value "video validation failed")
    require (∀ stream ∈ streams, stream.codecType ≠ "audio") (.value "video validation failed")

def Adapter.validate : Adapter → Bytes → Result Unit
  | .fal, bytes => (validateImage L bytes).map fun _ => ()
  | .runPod, bytes => validateVideo L bytes

def dimension : Option Json → Option ℕ
  | some (.num value) => if value.den = 1 ∧ 2 ≤ value.num then some value.num.toNat else none
  | _ => none

def expectedGeometry (job : Job) : Result (ℕ × ℕ) :=
  match (job.payload.get "image_size").getD (.obj []) with
  | .obj geometry =>
    match dimension (get geometry "width"), dimension (get geometry "height") with
    | some width, some height => .ok (width, height)
    | _, _ => .error (.value "explicit even image geometry required")
  | _ => .error ⟨.other "AttributeError", "object has no attribute 'get'"⟩

def Adapter.validateForJob : Adapter → Job → Bytes → Result Unit
  | .fal, job, bytes => do
    let image ← validateImage L bytes
    let expected ← expectedGeometry job
    require ((image.width, image.height) = expected) (.value "image geometry contract mismatch")
  | .runPod, _, _ => pure ()

def Adapter.Valid (adapter : Adapter) (job : Job) (bytes : Bytes) : Prop :=
  adapter.validate L bytes = .ok () ∧ adapter.validateForJob L job bytes = .ok ()

end

/-! ## Responses -/

mutual
def oneUrl : Json → Result String
  | .str url => .ok url
  | .obj entries =>
    match textAt entries "url", textAt entries "video", textAt entries "image" with
    | some url, _, _ | none, some url, _ | none, none, some url => .ok url
    | none, none, none =>
      match urlAt entries "images", urlAt entries "videos", urlAt entries "output" with
      | some found, _, _ | none, some found, _ | none, none, some found => found
      | none, none, none =>
        .error (.value "provider response must contain exactly one output URL")
  | .arr items => onlyUrl items
  | _ => .error (.value "provider response must contain exactly one output URL")

def onlyUrl : List Json → Result String
  | [item] => oneUrl item
  | _ => .error (.value "provider response must contain exactly one output URL")

def urlAt : List (String × Json) → String → Option (Result String)
  | [], _ => none
  | (name, value) :: rest, key => if name = key then some (oneUrl value) else urlAt rest key

def textAt : List (String × Json) → String → Option String
  | [], _ => none
  | (name, value) :: rest, key =>
    if name = key then (match value with | .str text => some text | _ => none)
    else textAt rest key
end

def completed (L : Libraries) (response : Dict) : Result (String × Decimal) := do
  require (response.get "status" = some (.str "COMPLETED"))
    (.runtime "RunPod remote job is not complete")
  match response.get "output" with
  | some (.obj output) =>
    match get output "cost" with
    | some (.num cost) =>
      match (get output "video_url").or (get output "result") with
      | some (.str url) => .ok (url, L.decimal cost)
      | _ => .error (.type "Seedance completed response has no video URL")
    | _ => .error (.value "Seedance completed response schema mismatch")
  | _ => .error (.value "Seedance completed response schema mismatch")

def Adapter.read (L : Libraries) (job : Job) : Adapter → Json → Result (String × Decimal)
  | .fal, response => do
    let url ← oneUrl response
    pure (url, job.cost)
  | .runPod, .obj response => completed L response
  | .runPod, _ => .error ⟨.other "AttributeError", "object has no attribute 'get'"⟩

def remoteId (value : String) : Result String := do
  let safe := fun c : Char => c.isAlphanum || c = '_' || c = '-'
  require (value.toList.all safe = true ∧ 1 ≤ value.length ∧ value.length ≤ 256)
    (.value "safe durable request ID required")
  pure value

def Adapter.recoverable : Adapter → String → Result Unit
  | .fal, providerId =>
    require (providerId ≠ "") (.value "FAL recovery requires durable provider request ID")
  | .runPod, providerId => (remoteId providerId).map fun _ => ()

def Adapter.submitted : Adapter → Json → Result String
  | .fal, .obj handle =>
    match get handle "request_id" with
    | some (.str providerId) => do
      require (providerId ≠ "") (.runtime "FAL submit did not return a durable request ID")
      pure providerId
    | _ => .error (.runtime "FAL submit did not return a durable request ID")
  | .runPod, .obj response =>
    match get response "id" with
    | some (.str providerId) => remoteId providerId
    | _ => .error (.value "safe durable request ID required")
  | .fal, _ => .error (.runtime "FAL submit did not return a durable request ID")
  | .runPod, _ => .error (.value "safe durable request ID required")

def destination (adapter : Adapter) (quarantine requestId : String) : Result String := do
  require (requestId ≠ "" ∧ requestId ≠ "." ∧ '/' ∉ requestId.toList)
    (.value "safe local request ID required")
  pure (quarantine ++ "/" ++ requestId ++ "/result" ++ adapter.suffix)

/-! ## Attempts -/

structure Delivery where
  bytes : Bytes
  ends : Result Unit

inductive Op where
  /-- `client.result` or `transport.get`. -/
  | fetch (endpoint providerId : String)
  | post (job : Job)
  | download (url : String)
  | isFile (path : String)
  | create (path : String)
  | write (path : String) (byte : UInt8)
  | fsync (path : String)
  | load (path : String)

abbrev Op.Res : Op → Type
  | .fetch _ _ => Result Json
  | .post _ => Result Json
  | .download _ => Delivery
  | .isFile _ => Bool
  | .create _ => Result Unit
  | .write _ _ => Unit
  | .fsync _ => Unit
  | .load _ => Result Bytes

inductive Act where
  | op (op : Op)
  | checkpoint (providerId partialPath : String)

abbrev Act.Res : Act → Type
  | .op operation => operation.Res
  | .checkpoint _ _ => Result Unit

abbrev actions : Interface := ⟨Act, Act.Res⟩

abbrev Files := String → Option Bytes

structure Outside where
  fetched : Result Json
  posted : Result Json
  delivery : Delivery
  accepted : Result Unit

def Op.serve (outside : Outside) (files : Files) : (op : Op) → Files × op.Res
  | .fetch _ _ => (files, outside.fetched)
  | .post _ => (files, outside.posted)
  | .download _ => (files, outside.delivery)
  | .isFile path => (files, (files path).isSome)
  | .create path =>
    match files path with
    | none => (update files path (some []), .ok ())
    | some _ => (files, .error (.os "File exists"))
  | .write path byte =>
    (update files path ((files path).map fun bytes => bytes ++ [byte]), ())
  | .fsync _ => (files, ())
  | .load path =>
    match files path with
    | some bytes => (files, .ok bytes)
    | none => (files, .error (.os "No such file or directory"))

abbrev machine : Machine actions where
  World := Files
  Oracle := Outside
  exec outside _ files
    | .op operation => some (operation.serve outside files)
    | .checkpoint _ _ => some (files, outside.accepted)
  crash _ files := files

abbrev Program (α : Type) := Prog actions Error α

namespace Program

def ofResult {α : Type} (result : Result α) : Program α := Prog.ofExcept result

def op (operation : Op) : Program operation.Res := .act (I := actions) (.op operation) .pure

def demand {α : Type} (operation : Op) (answer : operation.Res → Result α) : Program α :=
  Prog.request (I := actions) (.op operation) answer

def checkpoint (providerId partialPath : String) : Program Unit :=
  Prog.request (I := actions) (.checkpoint providerId partialPath) id

end Program

def writeAll (path : String) : Bytes → Program Unit
  | [] => pure ()
  | byte :: rest => do
    Program.op (.write path byte)
    writeAll path rest

section
variable (L : Libraries) (adapter : Adapter) (root requestId : String)

def validateFile (path : String) : Program Unit := do
  let bytes ← Program.demand (.load path) id
  Program.ofResult (adapter.validate L bytes)

def validateFileForJob (job : Job) (path : String) : Program Unit := do
  let bytes ← Program.demand (.load path) id
  Program.ofResult (adapter.validateForJob L job bytes)

def receive (url path : String) : Program String := do
  Program.demand (.create path) id
  let delivery ← Program.op (.download url)
  writeAll path delivery.bytes
  Program.ofResult delivery.ends
  Program.op (.fsync path)
  Program.checkpoint "" path
  validateFile L adapter path
  pure path

def quarantine (url : String) : Program String := do
  let path ← Program.ofResult (destination adapter root requestId)
  let found ← Program.op (.isFile path)
  if found then do
    validateFile L adapter path
    pure path
  else receive L adapter url path

def resolveResponse (job : Job) (response : Json) : Program (String × Decimal) := do
  let (url, cost) ← Program.ofResult (adapter.read L job response)
  let output ← quarantine L adapter root requestId url
  validateFileForJob L adapter job output
  pure (output, cost)

def resolve (job : Job) (providerId : String) : Program (String × Decimal) := do
  let response ← Program.demand (.fetch job.endpoint providerId) id
  resolveResponse L adapter root requestId job response

def Adapter.answered : Adapter → Json → Bool
  | .runPod, .obj response => get response "status" = some (.str "COMPLETED")
  | _, _ => false

def submit (job : Job) : Program (String × Decimal) := do
  let posted ← Program.demand (.post job) id
  let providerId ← Program.ofResult (adapter.submitted posted)
  Program.checkpoint providerId ""
  if adapter.answered posted then resolveResponse L adapter root requestId job posted
  else resolve L adapter root requestId job providerId

def recover (job : Job) (providerId : String) : Program (String × Decimal) := do
  Program.ofResult (adapter.recoverable providerId)
  resolve L adapter root requestId job providerId

def attempts : Set (Prog actions Error Unit) :=
  { program | ∃ adapter requestId job, program = (submit L adapter root requestId job).discard ∨
      ∃ providerId, program = (recover L adapter root requestId job providerId).discard }

end

/-! ## What attempts leave behind -/

def left (path : String) : List (Event actions) → Option Bytes
  | [] => none
  | ⟨_, .op (.create target), .ok _⟩ :: earlier =>
    if target = path then some [] else left path earlier
  | ⟨_, .op (.write target byte), _⟩ :: earlier =>
    if target = path then (left path earlier).map fun bytes => bytes ++ [byte]
    else left path earlier
  | _ :: earlier => left path earlier

section
variable {path : String} {s s' : Shared machine} {pid : ℕ} {action : Act} {response : action.Res}

theorem performs_left (performs : Performs (M := machine) pid action response s s')
    (before : s.world path = left path s.trace) : s'.world path = left path s'.trace := by
  obtain ⟨outside, executed, extended⟩ := performs
  obtain ⟨files, trace⟩ := s'
  cases extended
  cases action with
  | checkpoint providerId partialPath =>
    cases executed
    exact before
  | op operation =>
    simp only [some.injEq] at executed
    cases operation with
    | create target =>
      simp only [Op.serve] at executed
      split at executed
      · cases executed
        simp only [left, update_apply, eq_comm (a := path)]
        split_ifs
        · rfl
        · exact before
      · cases executed
        exact before
    | write target byte =>
      cases executed
      simp only [left, update_apply, eq_comm (a := path)]
      split_ifs with same
      · rw [same, before]
      · exact before
    | load target =>
      simp only [Op.serve] at executed
      split at executed <;> cases executed <;> exact before
    | fetch | post | download | isFile | fsync =>
      cases executed
      exact before

theorem files_eq_left {L : Libraries} {root : String} {c : Config machine Error} (reaches : Reaches (attempts L root)
    anyStep (Config.initial fun _ => none) c) (path : String) : c.world path = left path c.trace :=
  Reaches.invariant (K := fun s : Shared machine => s.world path = left path s.trace)
    (fun before performs => performs_left performs before) (fun _ => id) rfl reaches

end

/-! ### A file that exists -/

section
variable {path : String} {bytes : Bytes}

theorem Op.serve_keeps {operation : Op} {outside : Outside} {files : Files} (other : ∀ byte, operation
    ≠ .write path byte) (found : files path = some bytes) : (operation.serve outside files).1 path = some bytes := by
  cases operation with
  | create target =>
    simp only [Op.serve]
    split
    · rename_i missing
      have different : path ≠ target := by
        rintro rfl
        rw [missing] at found
        cases found
      simpa [update_of_ne different] using found
    · exact found
  | write target byte =>
    have different : path ≠ target := by
      rintro rfl
      exact other byte rfl
    simpa [Op.serve, update_of_ne different] using found
  | load target =>
    simp only [Op.serve]
    split <;> exact found
  | fetch | post | download | isFile | fsync => exact found

def sealing (path : String) (bytes : Bytes) : Protocol machine where
  inv s := s.world path = some bytes
  grants _ _ action := ∀ byte, action ≠ .op (.write path byte)
  preserves := by
    rintro pid action response s s' found other ⟨outside, executed, -⟩
    cases action with
    | checkpoint providerId partialPath =>
      simp only [some.injEq, Prod.mk.injEq] at executed
      exact executed.1 ▸ found
    | op operation =>
      simp only [some.injEq] at executed
      have kept := @Op.serve_keeps path bytes operation outside s.world
        (fun byte same => other byte (congrArg Act.op same)) found
      rw [executed] at kept
      exact kept
  survives _ found := found

def Act.Unwriting : Act → Prop
  | .op (.write _ _) => False
  | _ => True

theorem conforms_of_unwriting {α : Type} {program : Program α} (only : program.Only Act.Unwriting) :
    (sealing path bytes).Conforms program := by
  refine .of_only (fun pid action unwriting s _ byte same => ?_) only
  rw [same] at unwriting
  exact unwriting

theorem unwriting_ofResult {α : Type} (result : Result α) : (Program.ofResult result).Only Act.Unwriting := .ofExcept _

theorem unwriting_op (operation : Op) (unwriting : (Act.op operation).Unwriting) :
    (Program.op operation).Only Act.Unwriting := ⟨unwriting, fun _ => trivial⟩

theorem unwriting_demand {α : Type} (operation : Op) (unwriting : (Act.op operation).Unwriting)
    {answer : operation.Res → Result α} :
    (Program.demand operation answer).Only Act.Unwriting := ⟨unwriting, fun _ => .ofExcept _⟩

theorem unwriting_checkpoint (providerId partialPath : String) :
    (Program.checkpoint providerId partialPath).Only Act.Unwriting :=
  ⟨trivial, fun _ => .ofExcept _⟩

theorem unwriting_validateFile (L : Libraries) (adapter : Adapter) (target : String) :
    (validateFile L adapter target).Only Act.Unwriting :=
  (unwriting_demand (.load target) trivial).bind fun _ => unwriting_ofResult _

theorem conforms_writeAll {target : String} (different : target ≠ path) (written : Bytes) :
    (sealing path bytes).Conforms (writeAll target written) := by
  induction written with
  | nil => exact .pure ()
  | cons byte rest ih =>
    refine .bind ?_ fun _ => ih
    have only : (Program.op (.write target byte)).Only (· = Act.op (.write target byte)) :=
      ⟨rfl, fun _ => trivial⟩
    refine .of_only ?_ only
    rintro pid action rfl s _ byte' same
    cases same
    exact different rfl

section
variable (L : Libraries)

section
variable (adapter : Adapter)

theorem conforms_receive (url target : String) : (sealing path bytes).Conforms (receive L adapter url target) := by
  intro pid
  have created : (sealing path bytes).Safe pid (fun _ => True) (Program.demand (.create target) id)
      (fun _ _ => target ≠ path) fun _ _ => True := by
    refine .request (fun s _ _ byte same => by cases same) (fun _ _ _ _ _ => id)
      (fun _ => Protocol.Stable.true) ?_ fun _ _ _ _ _ _ _ _ _ => trivial
    rintro response ⟨⟩ s s' success found - ⟨outside, executed, -⟩ - rfl
    have missing : s.world target = some bytes := found
    simp only [Op.serve, missing, some.injEq, Prod.mk.injEq] at executed
    rw [← executed.2] at success
    cases success
  refine created.bind fun _ => .given (fun _ _ => id) fun different => ?_
  have rest : (sealing path bytes).Conforms (do
      let delivery ← Program.op (.download url)
      writeAll target delivery.bytes
      Program.ofResult delivery.ends
      Program.op (.fsync target)
      Program.checkpoint "" target
      validateFile L adapter target
      pure target) :=
    .bind (conforms_of_unwriting (unwriting_op (.download url) trivial)) fun delivery =>
      .bind (conforms_writeAll different _) fun _ => conforms_of_unwriting <|
      (unwriting_ofResult _).bind fun _ => (unwriting_op (.fsync target) trivial).bind fun _ =>
      (unwriting_checkpoint _ _).bind fun _ => (unwriting_validateFile _ _ _).bind fun _ => trivial
  exact (rest pid).consequence (fun _ _ _ => trivial) (fun _ _ _ => trivial) fun _ _ _ => trivial

theorem conforms_quarantine (root requestId url : String) :
    (sealing path bytes).Conforms (quarantine L adapter root requestId url) := by
  refine .bind (conforms_of_unwriting (unwriting_ofResult _)) fun target =>
    .bind (conforms_of_unwriting (unwriting_op (.isFile target) trivial)) fun found => ?_
  split
  · exact conforms_of_unwriting ((unwriting_validateFile _ _ _).bind fun _ => trivial)
  · exact conforms_receive _ _ _ _

variable (root requestId : String)

theorem conforms_resolveResponse (job : Job)
    (response : Json) : (sealing path bytes).Conforms (resolveResponse L adapter root requestId job response) :=
  .bind (conforms_of_unwriting (unwriting_ofResult _)) fun read =>
    .bind (conforms_quarantine _ _ _ _ read.1) fun output => conforms_of_unwriting <|
    .bind ((unwriting_demand (.load output) trivial).bind fun _ => unwriting_ofResult _) fun _ => trivial

theorem conforms_resolve (job : Job)
    (providerId : String) : (sealing path bytes).Conforms (resolve L adapter root requestId job providerId) :=
  .bind (conforms_of_unwriting (unwriting_demand (.fetch job.endpoint providerId) trivial))
    fun response => conforms_resolveResponse _ _ _ _ _ response

theorem conforms_submit (job : Job) : (sealing path bytes).Conforms (submit L adapter root requestId job) := by
  refine .bind (conforms_of_unwriting (unwriting_demand (.post job) trivial)) fun posted =>
    .bind (conforms_of_unwriting (unwriting_ofResult _)) fun providerId =>
    .bind (conforms_of_unwriting (unwriting_checkpoint _ _)) fun _ => ?_
  split
  · exact conforms_resolveResponse _ _ _ _ _ _
  · exact conforms_resolve _ _ _ _ _ _

end

theorem sealing_admits (root : String) : (sealing path bytes).Admits (attempts L root) := by
  rintro _ ⟨adapter, requestId, job, rfl | ⟨providerId, rfl⟩⟩
  · exact (conforms_submit _ _ _ _ _).discard
  · exact Protocol.Conforms.discard
      (.bind (conforms_of_unwriting (unwriting_ofResult _)) fun _ => conforms_resolve _ _ _ _ _ _)

end

theorem file_kept {L : Libraries} {root : String} {c c' : Config machine Error} (stopped : c.Stopped) (found :
    c.world path = some bytes) (reaches : Reaches (attempts L root) anyStep c c') : c'.world path = some bytes :=
  ((Protocol.Sound.of_stopped (P := sealing path bytes) found stopped).reaches (sealing_admits L root) reaches).inv

end
end VideoPoster.Live
