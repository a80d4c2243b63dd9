import VideoPoster.Python.Basic
import VideoPoster.Python.Json

/-!
# `receipts`: approvals that are bound to the bytes of a file
-/

namespace VideoPoster.Approval
open Python

structure ApprovalReceipt where
  artifactKind : String
  artifactPath : String
  artifactSha256 : String
  approver : String
  approvedAt : String
  inboundReceipt : Option Dict := none

abbrev Look := Result (Option String)

def unauthorized (message : String) : Error := ⟨.other "PublicationAuthorizationError", message⟩

namespace ApprovalReceipt

def asdict (receipt : ApprovalReceipt) : Json :=
  .obj [("artifact_kind", .str receipt.artifactKind), ("artifact_path", .str receipt.artifactPath),
    ("artifact_sha256", .str receipt.artifactSha256), ("approver", .str receipt.approver),
    ("approved_at", .str receipt.approvedAt),
    ("inbound_receipt", (receipt.inboundReceipt.map Json.obj).getD .null)]

def verify (receipt : ApprovalReceipt) (look : Look) : Result Unit := do
  let found ← look
  require (found = some receipt.artifactSha256)
    (unauthorized ("Approved " ++ receipt.artifactKind ++ " bytes no longer match receipt"))

theorem verify_eq_ok {receipt : ApprovalReceipt} {look : Look} {u : Unit} :
    receipt.verify look = .ok u ↔ look = .ok (some receipt.artifactSha256) := by
  simp [verify]

end ApprovalReceipt

end VideoPoster.Approval
