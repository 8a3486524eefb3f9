import Helmsman.Cluster.Store
/-!
# The audit log

Every attempt to change a cluster leaves one record: who, what, where, and how it went. The record has a written form
for inspection and a form for the event log, in which an absent error is empty.
-/

namespace Helmsman

structure AuditRecord where
  actor : String
  module_ : String
  action : String
  clusterId : Nat
  clusterName : String
  ns : String
  resourceType : String
  resourceName : String
  success : Bool
  errorMessage : Option String
  createdAt : Instant
  deriving Repr, DecidableEq, Inhabited

namespace AuditRecord

def toJson (r : AuditRecord) : Json :=
  .object ([("actor", .string r.actor), ("module", .string r.module_), ("action", .string r.action),
    ("cluster_id", .ofNat r.clusterId), ("cluster_name", .string r.clusterName), ("namespace", .string r.ns),
    ("resource_type", .string r.resourceType), ("resource_name", .string r.resourceName),
    ("success", .bool r.success)]
    ++ r.errorMessage.elim [] (fun e => [("error_message", .string e)])
    ++ [("created_at", instantJson r.createdAt)])

def logFields (r : AuditRecord) : Json :=
  .ofMembers [("actor", .string r.actor), ("module", .string r.module_), ("action", .string r.action),
    ("cluster_id", .ofNat r.clusterId), ("cluster", .string r.clusterName), ("namespace", .string r.ns),
    ("resource_type", .string r.resourceType), ("resource", .string r.resourceName), ("success", .bool r.success),
    ("error", .string (r.errorMessage.getD "")), ("message", .string "audit")]

end AuditRecord

end Helmsman
