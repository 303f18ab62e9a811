import WppGateway.Store

/-! BlacklistRepo: one row for each group and phone. -/
namespace WppGateway.Blacklist
open GoJson Domain Store

structure BlacklistEntry where
  id : UUID
  groupId : UUID
  phone : GoString
  reason : GoString
  createdAt : Int
  deriving DecidableEq, Repr

def isBlacklisted (rows : List BlacklistEntry) (groupId : UUID) (phone : GoString) : Bool :=
  rows.any (fun e => e.groupId == groupId && e.phone == phone)

/- One INSERT with ON CONFLICT DO NOTHING, and the rows it affects. The argument `known` says that
the group exists. -/
def insert (known : Bool) (rows : List BlacklistEntry) (e : BlacklistEntry) : Option (List BlacklistEntry × Nat) := do
  let phone ← varchar 20 e.phone
  let reason ← varchar 50 e.reason
  if isBlacklisted rows e.groupId phone then some (rows,0)
  else if known then some (rows ++ [{e with phone := phone, reason := reason}],1)
  else none

/- The statements of one Add. The first that fails, or is not answered, ends it; what was inserted stays. -/
def add (known : Bool) (rows : List BlacklistEntry) : List (BlacklistEntry × Bool) → List BlacklistEntry × Option Nat
  | [] => (rows,some 0)
  | (e,ok)::rest => match (if ok then insert known rows e else none) with
    | none => (rows,none)
    | some (next,affected) =>
      let (later,added) := add known next rest
      (later,added.map (affected + ·))

def remove (rows : List BlacklistEntry) (groupId : UUID) (phone : GoString) : List BlacklistEntry :=
  rows.filter (fun e => !(e.groupId == groupId && e.phone == phone))

/- The newest first. A negative LIMIT or OFFSET is an error of the database. -/
def list (rows : List BlacklistEntry) (groupId : UUID) (limit offset : Int) : Option (List BlacklistEntry × Int) :=
  if limit < 0 ∨ offset < 0 then none
  else
    let all := rows.filter (fun e => e.groupId == groupId)
    some (((all.insertionSort (fun a b => a.createdAt ≥ b.createdAt)).drop offset.toNat).take limit.toNat,all.length)

theorem insertListed {known : Bool} {rows next : List BlacklistEntry} {e : BlacklistEntry} {n : Nat}
    (inserted : insert known rows e = some (next,n)) {groupId : UUID} {phone : GoString} :
    isBlacklisted next groupId phone = true ↔ isBlacklisted rows groupId phone = true ∨
      (e.groupId = groupId ∧ varchar 20 e.phone = some phone) := by
  simp only [insert,bind,Option.bind_eq_some_iff] at inserted
  obtain ⟨stored,column,reason,_,inserted⟩ := inserted
  split at inserted
  · next there =>
    cases inserted
    refine ⟨.inl,fun either => ?_⟩
    rcases either with old | ⟨rfl,same⟩
    · exact old
    · cases Option.some.inj (column.symm.trans same)
      exact there
  · split at inserted <;> cases inserted
    simp [isBlacklisted,column]

theorem removeListed (rows : List BlacklistEntry) (groupId owner : UUID) (phone number : GoString) :
    isBlacklisted (remove rows groupId phone) owner number = true ↔
      isBlacklisted rows owner number = true ∧ ¬ (owner = groupId ∧ number = phone) := by
  simp only [isBlacklisted,remove,List.any_filter,List.any_eq_true]
  constructor
  · intro found
    obtain ⟨e,member,both⟩ := found
    simp only [Bool.and_eq_true,Bool.not_eq_true',Bool.and_eq_false_iff,beq_iff_eq,beq_eq_false_iff_ne] at both
    obtain ⟨kept,rfl,rfl⟩ := both
    refine ⟨⟨e,member,by simp⟩,fun same => ?_⟩
    rcases kept with other | other
    · exact other same.1
    · exact other same.2
  · intro both
    obtain ⟨⟨e,member,here⟩,other⟩ := both
    simp only [Bool.and_eq_true,beq_iff_eq] at here
    obtain ⟨rfl,rfl⟩ := here
    refine ⟨e,member,?_⟩
    simp only [beq_self_eq_true,Bool.and_true,Bool.not_eq_true',Bool.and_eq_false_iff,beq_eq_false_iff_ne]
    by_contra same
    simp only [not_or,not_not] at same
    exact other same

end WppGateway.Blacklist
