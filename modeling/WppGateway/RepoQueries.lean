import WppGateway.ResourceHandlers
import WppGateway.Statements

/-! The two lists whose statements are put together at run time: the messages of a group with their filters, and the audit
log of a tenant. Their texts are read as the database reads them. -/
namespace WppGateway.RepoQueries
open GoJson Domain Resources Service ResourceHandlers Statements Numerals
open Store (varchar)

inductive Arg where
  | uuid (id : UUID)
  | text (s : GoString)
  | int (n : Int)
  deriving DecidableEq, Repr

theorem uuids (x y : UUID) (same : Arg.uuid x = .uuid y) : x = y := Arg.uuid.inj same
theorem texts (x y : GoString) (same : Arg.text x = .text y) : x = y := Arg.text.inj same

def Arg.number : Arg → Option Int
  | .int n => some n
  | _ => none

/-! MessageRepo.FindByGroupID. -/

structure MessageFilter where
  status : Option GoString
  recipient : Option GoString
  instanceId : Option UUID
  limit : Int
  offset : Int

def msgColumns : GoString := text ("id, group_id, instance_id, recipient, message_type, content_hash,\n\t" ++
  "status, error_code, queued_at, sent_at, delivered_at, read_at")

def groupClause (groupId : UUID) : Building Arg := ⟨text "WHERE group_id = $1",[.uuid groupId],2⟩

def messageClause (groupId : UUID) (filter : MessageFilter) : Building Arg :=
  let q := extend (groupClause groupId) (text "status") (filter.status.map .text)
  let q := extend q (text "recipient") (filter.recipient.map .text)
  extend q (text "instance_id") (filter.instanceId.map .uuid)

def countQuery (q : Building Arg) : GoString := text "SELECT COUNT(*) FROM message_logs " ++ q.clause

def messageQuery (q : Building Arg) : GoString :=
  text "SELECT " ++ msgColumns ++ text " FROM message_logs " ++ q.clause ++ text " ORDER BY queued_at DESC LIMIT $" ++
    numeral 10 1 q.argIdx ++ text " OFFSET $" ++ numeral 10 1 (q.argIdx + 1)

def messageLogs : Database MessageLog Arg where
  column c m :=
    if c = text "group_id" then m.groupId.map .uuid
    else if c = text "status" then some (.text (messageStatusText m.status))
    else if c = text "recipient" then some (.text m.recipient)
    else if c = text "instance_id" then m.instanceId.map .uuid
    else none
  descending c rows := if c = text "queued_at" then rows.reverse else rows
  number := Arg.number

def findByGroupID (rows : List MessageLog) (groupId : UUID) (filter : MessageFilter) : Option (List MessageLog × Int) := do
  let q := messageClause groupId filter
  let total ← queryCount messageLogs q.args (countQuery q) rows
  let limit := if filter.limit ≤ 0 then 50 else filter.limit
  let messages ← query messageLogs (q.args ++ [.int limit,.int filter.offset]) (messageQuery q) rows
  some (messages,total)

def messageFilters (filter : MessageFilter) : List (GoString × Arg) :=
  ((filter.status.map Arg.text).map (Prod.mk (text "status"))).toList ++
    ((filter.recipient.map Arg.text).map (Prod.mk (text "recipient"))).toList ++
    ((filter.instanceId.map Arg.uuid).map (Prod.mk (text "instance_id"))).toList

theorem messageBuilt (groupId : UUID) (filter : MessageFilter) :
    Built (messageClause groupId filter) (text "group_id",.uuid groupId) (messageFilters filter) := by
  have start : Built (groupClause groupId) (text "group_id",.uuid groupId) [] := by
    have clause : text "WHERE group_id = $1" = keyword "WHERE " ++ text "group_id" ++ keyword " = " ++ argumentText 1 := by
      decide +kernel
    rw [groupClause,clause]
    exact startBuilt (by decide +kernel) _
  have status : Plain (text "status") := by decide +kernel
  have recipient : Plain (text "recipient") := by decide +kernel
  have instanceId : Plain (text "instance_id") := by decide +kernel
  exact extendBuilt (extendBuilt (extendBuilt start status (filter.status.map .text)) recipient
    (filter.recipient.map .text)) instanceId (filter.instanceId.map .uuid)

theorem queryText (q : Building Arg) : messageQuery q = pageText msgColumns (text "message_logs") (text "queued_at") q := by
  have table : text " FROM message_logs " = keyword " FROM " ++ text "message_logs" ++ keyword " " := by decide +kernel
  have order : text " ORDER BY queued_at DESC LIMIT $" =
      keyword " ORDER BY " ++ text "queued_at" ++ keyword " DESC LIMIT " ++ [36] := by
    decide +kernel
  have offset : text " OFFSET $" = keyword " OFFSET " ++ [36] := by decide +kernel
  simp only [messageQuery,pageText,selectText,argumentText,table,order,offset,List.append_assoc,List.cons_append,List.nil_append]
  rfl

theorem countText (q : Building Arg) : countQuery q = selectText (text "COUNT(*)") (text "message_logs") q := by
  have head : text "SELECT COUNT(*) FROM message_logs " =
      keyword "SELECT " ++ text "COUNT(*)" ++ keyword " FROM " ++ text "message_logs" ++ keyword " " := by decide +kernel
  rw [countQuery,selectText,head]

/-! AuditRepo.List. -/

structure AuditEntry where
  id : UUID
  tenantId : UUID
  action : GoString
  resourceId : Option UUID
  details : Option Json
  ipAddress : Option GoString
  apiKeyId : Option GoString
  createdAt : Int
  deriving Repr

def tenantClause (tenantId : UUID) : Building Arg := ⟨text "WHERE tenant_id = $1",[.uuid tenantId],2⟩

/- The number of the second argument is written out. -/
def auditClause (tenantId : UUID) (action : GoString) : Building Arg :=
  let q := tenantClause tenantId
  if action = [] then q else ⟨q.clause ++ text " AND action = $2",q.args ++ [.text action],q.argIdx + 1⟩

def auditCount (q : Building Arg) : GoString := text "SELECT COUNT(*) FROM audit_log " ++ q.clause

def auditQuery (q : Building Arg) : GoString :=
  text ("SELECT id, tenant_id, action, resource_id, details, ip_address, api_key_id, created_at\n\t\t" ++
    "FROM audit_log ") ++ q.clause ++ text " ORDER BY created_at DESC LIMIT $" ++ numeral 10 1 q.argIdx ++
    text " OFFSET $" ++ numeral 10 1 (q.argIdx + 1)

/- The table audit_log. Entries of one time stay in their order. -/
def auditLog : Database AuditEntry Arg where
  column c e :=
    if c = text "tenant_id" then some (.uuid e.tenantId)
    else if c = text "action" then some (.text e.action)
    else none
  descending c rows := if c = text "created_at" then rows.insertionSort (fun a b => a.createdAt ≥ b.createdAt) else rows
  number := Arg.number

def list (rows : List AuditEntry) (tenantId : UUID) (action : GoString) (limit offset : Int) :
    Option (List AuditEntry × Int) := do
  let q := auditClause tenantId action
  let total ← queryCount auditLog q.args (auditCount q) rows
  let entries ← query auditLog (q.args ++ [.int limit,.int offset]) (auditQuery q) rows
  some (entries,total)

def auditList (rows : List AuditEntry) (tenant : Option Tenant) (action : GoString) (limit offset : Option Int)
    (read : Bool) : Except Reply (List AuditEntry × Http.Meta) := match tenant with
  | none => .error (errUnauthorized "Tenant not found")
  | some tenant =>
    let limit := limit.getD 50
    let offset := offset.getD 0
    match (if read then list rows tenant.id action limit offset else none) with
    | none => .error (errInternal "Failed to list audit log")
    | some (entries,total) => .ok (entries,⟨total,limit,offset⟩)

section Messages
variable (s : State) (groupId : UUID) (q : Req) (limit offset : Int)

def filterOf : MessageFilter := ⟨q.status,q.recipient,q.instanceFilter,limit,offset⟩

theorem filtersHold (m : MessageLog) :
    ((text "group_id",Arg.uuid groupId)::messageFilters (filterOf q limit offset)).all (equalTo messageLogs m) =
      (m.groupId == some groupId && q.status.all (· == messageStatusText m.status) &&
        q.recipient.all (· == m.recipient) && q.instanceFilter.all (fun i => m.instanceId == some i)) := by
  have other : text "status" ≠ text "group_id" ∧ text "recipient" ≠ text "group_id" ∧ text "recipient" ≠ text "status" ∧
      text "instance_id" ≠ text "group_id" ∧ text "instance_id" ≠ text "status" ∧ text "instance_id" ≠ text "recipient" := by
    decide +kernel
  obtain ⟨one_,two,three,four,five,six⟩ := other
  have group : messageLogs.column (text "group_id") m = m.groupId.map .uuid := by
    simp only [messageLogs,if_true]
  have status : messageLogs.column (text "status") m = (some (messageStatusText m.status)).map .text := by
    simp only [messageLogs,if_neg one_,if_true,Option.map_some]
  have recipient : messageLogs.column (text "recipient") m = (some m.recipient).map .text := by
    simp only [messageLogs,if_neg two,if_neg three,if_true,Option.map_some]
  have instanceId : messageLogs.column (text "instance_id") m = m.instanceId.map .uuid := by
    simp only [messageLogs,if_neg four,if_neg five,if_neg six,if_true]
  refine Bool.eq_iff_iff.mpr ?_
  simp only [List.all_cons,messageFilters,List.all_append,Bool.and_eq_true,equalColumn uuids group,equalFilter texts status,
    equalFilter texts recipient,equalFilter uuids instanceId,filterOf,beq_iff_eq,Option.all_eq_true,Option.some.injEq,
    and_assoc,@eq_comm _ (messageStatusText m.status),@eq_comm _ m.recipient]
  exact Iff.rfl

theorem messagesListed : findByGroupID s.messages groupId (filterOf q limit offset) = findMessages s groupId q limit offset := by
  have built := messageBuilt groupId (filterOf q limit offset)
  have table : Plain (text "message_logs") := by decide +kernel
  have order : Plain (text "queued_at") := by decide +kernel
  have all : .word (keyword "FROM") ∉ lex (text "COUNT(*)") := by decide +kernel
  have columns : .word (keyword "FROM") ∉ lex msgColumns := by decide +kernel
  have positive : ¬(if limit ≤ 0 then 50 else limit) < 0 := by
    split <;> omega
  have count := countMeans messageLogs built all table s.messages
  have page := pageMeans messageLogs built columns table order s.messages
    (l := .int (if limit ≤ 0 then 50 else limit)) (o := .int offset) rfl rfl
  simp only [filtersHold] at count page
  have newest (rows : List MessageLog) : messageLogs.descending (text "queued_at") rows = rows.reverse := by
    simp only [messageLogs,if_true]
  have bound : (filterOf q limit offset).limit = limit ∧ (filterOf q limit offset).offset = offset := ⟨rfl,rfl⟩
  simp only [findByGroupID,countText,queryText,bound,count,page,newest,positive,false_or,findMessages,Option.bind_eq_bind,
    Option.bind_some]
  split <;> rfl

end Messages

section Audit
variable (rows : List AuditEntry) (tenantId : UUID) (action : GoString) (limit offset : Int)

def auditPage : Option (List AuditEntry × Int) :=
  let found := rows.filter (fun e => decide (e.tenantId = tenantId) && (decide (action = []) || decide (e.action = action)))
  if limit < 0 ∨ offset < 0 then none
  else some (((found.insertionSort (fun a b => a.createdAt ≥ b.createdAt)).drop offset.toNat).take limit.toNat,found.length)

def auditFilter : Option GoString := if action = [] then none else some action

theorem auditBuilt : Built (auditClause tenantId action) (text "tenant_id",.uuid tenantId)
    (((auditFilter action).map Arg.text).map (Prod.mk (text "action"))).toList := by
  have start : Built (tenantClause tenantId) (text "tenant_id",.uuid tenantId) [] := by
    have clause : text "WHERE tenant_id = $1" = keyword "WHERE " ++ text "tenant_id" ++ keyword " = " ++ argumentText 1 := by
      decide +kernel
    rw [tenantClause,clause]
    exact startBuilt (by decide +kernel) _
  have column : Plain (text "action") := by decide +kernel
  have second : text " AND action = $2" = keyword " AND " ++ text "action" ++ keyword " = " ++ argumentText 2 := by
    decide +kernel
  have extended : auditClause tenantId action =
      extend (tenantClause tenantId) (text "action") ((auditFilter action).map .text) := by
    unfold auditClause auditFilter
    split
    · rfl
    · simp only [second,extend,Option.map_some,tenantClause,List.append_assoc]
  rw [extended]
  exact extendBuilt start column _

theorem auditHolds (e : AuditEntry) :
    ((text "tenant_id",Arg.uuid tenantId)::(((auditFilter action).map Arg.text).map (Prod.mk (text "action"))).toList).all
      (equalTo auditLog e) = (decide (e.tenantId = tenantId) && (decide (action = []) || decide (e.action = action))) := by
  have other : text "action" ≠ text "tenant_id" := by decide +kernel
  have tenant : auditLog.column (text "tenant_id") e = (some e.tenantId).map .uuid := by
    simp only [auditLog,if_true,Option.map_some]
  have here : auditLog.column (text "action") e = (some e.action).map .text := by
    simp only [auditLog,if_neg other,if_true,Option.map_some]
  refine Bool.eq_iff_iff.mpr ?_
  simp only [List.all_cons,Bool.and_eq_true,Bool.or_eq_true,decide_eq_true_eq,equalColumn uuids tenant,equalFilter texts here,
    Option.some.injEq,auditFilter]
  by_cases empty : action = [] <;> simp [empty]

def auditNames : GoString := text "id, tenant_id, action, resource_id, details, ip_address, api_key_id, created_at"

theorem auditText (q : Building Arg) : lex (auditQuery q) = lex (pageText auditNames (text "audit_log") (text "created_at") q) := by
  let written := text ("SELECT id, tenant_id, action, resource_id, details, ip_address, api_key_id, created_at\n\t\t" ++
    "FROM audit_log")
  let plain := keyword "SELECT " ++ auditNames ++ keyword " FROM " ++ text "audit_log"
  have words : lex written = lex plain := by decide +kernel
  have head : text ("SELECT id, tenant_id, action, resource_id, details, ip_address, api_key_id, created_at\n\t\t" ++
      "FROM audit_log ") = written ++ [32] := by decide +kernel
  have space : keyword " " = [32] := by decide +kernel
  have order : text " ORDER BY created_at DESC LIMIT $" =
      keyword " ORDER BY " ++ text "created_at" ++ keyword " DESC LIMIT " ++ [36] := by decide +kernel
  have offset : text " OFFSET $" = keyword " OFFSET " ++ [36] := by decide +kernel
  let rest := q.clause ++ keyword " ORDER BY " ++ text "created_at" ++ keyword " DESC LIMIT " ++ argumentText q.argIdx ++
    keyword " OFFSET " ++ argumentText (q.argIdx + 1)
  have left : auditQuery q = written ++ 32::rest := by
    simp only [auditQuery,head,order,offset,rest,argumentText,List.append_assoc,List.cons_append,List.nil_append]
  have right : pageText auditNames (text "audit_log") (text "created_at") q = plain ++ 32::rest := by
    simp only [pageText,selectText,space,plain,rest,List.append_assoc,List.cons_append,List.nil_append]
  have parts (a : GoString) : lex (a ++ 32::rest) = lex a ++ lex rest := lexBlank [] a rest
  rw [left,right,parts,parts,words]

theorem auditCountText (q : Building Arg) : auditCount q = selectText (text "COUNT(*)") (text "audit_log") q := by
  have head : text "SELECT COUNT(*) FROM audit_log " =
      keyword "SELECT " ++ text "COUNT(*)" ++ keyword " FROM " ++ text "audit_log" ++ keyword " " := by decide +kernel
  rw [auditCount,selectText,head]

theorem auditListed : list rows tenantId action limit offset = auditPage rows tenantId action limit offset := by
  have built := auditBuilt tenantId action
  have table : Plain (text "audit_log") := by decide +kernel
  have order : Plain (text "created_at") := by decide +kernel
  have all : .word (keyword "FROM") ∉ lex (text "COUNT(*)") := by decide +kernel
  have columns : .word (keyword "FROM") ∉ lex auditNames := by decide +kernel
  have count := countMeans auditLog built all table rows
  have page := pageMeans auditLog built columns table order rows (l := .int limit) (o := .int offset) rfl rfl
  simp only [auditHolds] at count page
  have newest (rows : List AuditEntry) : auditLog.descending (text "created_at") rows =
      rows.insertionSort (fun a b => a.createdAt ≥ b.createdAt) := by
    simp only [auditLog,if_true]
  simp only [list,auditCountText,querySame auditLog (auditText _),count,page,newest,auditPage,Option.bind_eq_bind,
    Option.bind_some]
  split <;> rfl

end Audit

end WppGateway.RepoQueries
