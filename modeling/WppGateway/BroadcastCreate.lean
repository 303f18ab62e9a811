import WppGateway.Gateway

/-! BroadcastHandler.Create: the row, its recipients and the worker. The statements
of one request are run without a step of another process between them. -/
namespace WppGateway.BroadcastCreate
open GoJson Domain Store Gateway Http

def estimateDuration (total : Int) : Int := max 1 ((7 * total + 120 * (total / 20)) / 120)

structure Answers where
  group : Bool
  row : Bool
  batch : Bool
  id : UUID
  createdAt : Int
  ids : List UUID

def insertBroadcast (jsonb : Json → Option Json) (g : System) (groupId : UUID) (input : CreateBroadcastInput)
    (a : Answers) : System × Response :=
  match (if a.row then create jsonb g.store a.id a.createdAt groupId input else none) with
  | none => (g,errInternal fresh "Failed to create broadcast")
  | some (s,b) =>
    match (if a.batch then createRecipients s a.ids b.id input.recipients else none) with
    | none => (write g s,errInternal fresh "Failed to create recipient records")
    | some s =>
      let made := write g s
      let started := if input.options.scheduleAt = none then perform made (.startJob b) else made
      (started,Http.created fresh (.created b.id b.status b.total (estimateDuration b.total) b.createdAt))

def broadcastCreate (jsonb : Json → Option Json) (g : System) (tenant : Option UUID) (group : Param)
    (body : Option Json) (a : Answers) : System × Response :=
  match tenant with
  | none => (g,errUnauthorized fresh "Tenant not found")
  | some tenant => match group.parsed with
    | none => (g,errBadRequest fresh (invalidUUID group))
    | some groupId =>
      if a.group = false then (g,errInternal fresh "Failed to get group")
      else if (findGroup g.store groupId).any (fun row => row.tenantId == tenant) then
        match body with
        | none => (g,errBadRequest fresh "Invalid request body")
        | some body =>
          let d := decodeCreateBroadcastInput body
          if d.ok = false then (g,errBadRequest fresh "Invalid request body")
          else if d.value.recipients = [] then (g,errBadRequest fresh "Recipients list cannot be empty")
          else if d.value.type = [] then (g,errBadRequest fresh "Message type is required")
          else insertBroadcast jsonb g groupId d.value a
      else (g,errNotFound fresh "Group not found")

inductive Inserted (jsonb : Json → Option Json) (g : System) (groupId : UUID) (input : CreateBroadcastInput)
    (a : Answers) (b : Broadcast) : System → Prop where
  | rows (s full : Tables) (row : create jsonb g.store a.id a.createdAt groupId input = some (s,b))
      (batch : createRecipients s a.ids a.id input.recipients = some full) :
      Inserted jsonb g groupId input a b
        (if input.options.scheduleAt = none then startJob (write g full) b else write g full)

theorem createId {jsonb s id at_ groupId input t b} (made : create jsonb s id at_ groupId input = some (t,b)) :
    b.id = id ∧ b.groupId = groupId := by
  simp only [create,bind,Option.bind_eq_some_iff] at made
  obtain ⟨_,_,_,_,_,_,_,_,_,_,_,_,made⟩ := made
  cases made
  exact ⟨rfl,rfl⟩

theorem insertedSource {jsonb g groupId input a t response}
    (made : insertBroadcast jsonb g groupId input a = (t,response)) (accepted : response.status = 201) :
    ∃ b, Inserted jsonb g groupId input a b t := by
  unfold insertBroadcast at made
  split at made
  · cases made; cases accepted
  · next s b row =>
    split at row <;> try contradiction
    split at made
    · cases made; cases accepted
    · next s' batch =>
      split at batch <;> try contradiction
      obtain ⟨rfl,rfl⟩ := Prod.mk.inj made
      rw [(createId row).1] at batch
      exact ⟨b,.rows s s' row batch⟩

theorem createdSource {jsonb g tenant group body a t response}
    (made : broadcastCreate jsonb g tenant group body a = (t,response)) (accepted : response.status = 201) :
    ∃ owner groupId json b, tenant = some owner ∧ group.parsed = some groupId ∧
      (findGroup g.store groupId).any (fun row => row.tenantId == owner) = true ∧ body = some json ∧
      Inserted jsonb g groupId (decodeCreateBroadcastInput json).value a b t := by
  unfold broadcastCreate at made
  split at made
  · cases made; cases accepted
  next owner =>
    split at made
    · cases made; cases accepted
    next groupId parsed =>
      split at made
      · cases made; cases accepted
      split at made
      · next owned =>
        split at made
        · cases made; cases accepted
        next json =>
          dsimp only at made
          split at made
          · cases made; cases accepted
          split at made
          · cases made; cases accepted
          split at made
          · cases made; cases accepted
          obtain ⟨b,inserted⟩ := insertedSource made accepted
          exact ⟨owner,groupId,json,b,rfl,parsed,owned,rfl,inserted⟩
      · cases made; cases accepted

end WppGateway.BroadcastCreate
