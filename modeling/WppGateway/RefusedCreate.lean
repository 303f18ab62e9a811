import WppGateway.BroadcastCreate

/-! What a refused request to create a broadcast leaves in the tables. -/
namespace WppGateway.RefusedCreate
open GoJson Domain Store Gateway Http BroadcastCreate

structure Untouched (g t : System) : Prop where
  broadcasts : t.store.broadcasts = g.store.broadcasts
  recipients : t.store.recipients = g.store.recipients
  workers : t.workers = g.workers
  jobs : t.activeJobs = g.activeJobs

def validated (g : System) (tenant : Option UUID) (group : Param) (body : Option Json) (a : Answers) :
    Option (UUID × CreateBroadcastInput) := do
  let owner ← tenant
  let groupId ← group.parsed
  let body ← body
  let d := decodeCreateBroadcastInput body
  if a.group = true ∧ (findGroup g.store groupId).any (fun row => row.tenantId == owner) = true ∧ d.ok = true ∧
    d.value.recipients ≠ [] ∧ d.value.type ≠ [] then some (groupId,d.value) else none

/- The database takes the row of the broadcast and not the batch of its recipients. -/
def BatchRefused (jsonb : Json → Option Json) (g : System) (groupId : UUID) (input : CreateBroadcastInput)
    (a : Answers) : Prop :=
  ∃ s b, a.row = true ∧ create jsonb g.store a.id a.createdAt groupId input = some (s,b) ∧
    (a.batch = false ∨ createRecipients s a.ids a.id input.recipients = none)

section Create
variable (jsonb : Json → Option Json) (g : System) (tenant : Option UUID) (group : Param) (body : Option Json)
  (a : Answers)

theorem createValidated : (validated g tenant group body a = none ∧
      (broadcastCreate jsonb g tenant group body a).1 = g ∧
      400 ≤ (broadcastCreate jsonb g tenant group body a).2.status) ∨
    ∃ groupId input, validated g tenant group body a = some (groupId,input) ∧
      broadcastCreate jsonb g tenant group body a = insertBroadcast jsonb g groupId input a := by
  have badRequest : 400 ≤ 400 := by decide
  have unauthorized : 400 ≤ 401 := by decide
  have notFound : 400 ≤ 404 := by decide
  have internal : 400 ≤ 500 := by decide
  unfold validated broadcastCreate
  cases tenant with
  | none => exact .inl ⟨rfl,rfl,unauthorized⟩
  | some owner =>
  cases parsed : group.parsed with
  | none => exact .inl ⟨rfl,rfl,badRequest⟩
  | some groupId =>
  simp only [Option.bind_eq_bind,Option.bind_some]
  by_cases answered : a.group = false
  · rw [if_pos answered]
    refine .inl ⟨?_,rfl,internal⟩
    cases body <;> simp [answered]
  rw [if_neg answered]
  by_cases owned : (findGroup g.store groupId).any (fun row => row.tenantId == owner) = true
  · rw [if_pos owned]
    cases body with
    | none => exact .inl ⟨rfl,rfl,badRequest⟩
    | some json =>
    simp only [Option.bind_some]
    by_cases broken : (decodeCreateBroadcastInput json).ok = false
    · rw [if_pos broken]
      exact .inl ⟨by simp [broken],rfl,badRequest⟩
    by_cases nobody : (decodeCreateBroadcastInput json).value.recipients = []
    · rw [if_neg broken,if_pos nobody]
      exact .inl ⟨by simp [nobody],rfl,badRequest⟩
    by_cases untyped : (decodeCreateBroadcastInput json).value.type = []
    · rw [if_neg broken,if_neg nobody,if_pos untyped]
      exact .inl ⟨by simp [untyped],rfl,badRequest⟩
    rw [if_neg broken,if_neg nobody,if_neg untyped]
    refine .inr ⟨groupId,_,?_,rfl⟩
    rw [if_pos ⟨by simpa using answered,owned,by simpa using broken,nobody,untyped⟩]
  · rw [if_neg owned]
    refine .inl ⟨?_,rfl,notFound⟩
    cases body <;> simp [owned]

variable (groupId : UUID) (input : CreateBroadcastInput)

inductive Inserts : System × Response → Prop where
  | rowRefused (response) (error : 400 ≤ response.status) (whole : ¬ BatchRefused jsonb g groupId input a) :
      Inserts (g,response)
  | batchRefused (s b response) (error : 400 ≤ response.status) (refused : BatchRefused jsonb g groupId input a)
      (grown : s.broadcasts = g.store.broadcasts ++ [b]) : Inserts (write g s,response)
  | both (t response) (accepted : response.status = 201) (whole : ¬ BatchRefused jsonb g groupId input a) :
      Inserts (t,response)

theorem createGrows {s : Tables} {id : UUID} {at_ : Int} {t : Tables} {b : Broadcast}
    (made : create jsonb s id at_ groupId input = some (t,b)) : t.broadcasts = s.broadcasts ++ [b] := by
  simp only [create,bind,Option.bind_eq_some_iff] at made
  obtain ⟨_,_,_,_,_,_,_,_,_,_,_,_,made⟩ := made
  cases made
  rfl

theorem inserts : Inserts jsonb g a groupId input (insertBroadcast jsonb g groupId input a) := by
  have internal : 400 ≤ 500 := by decide
  unfold insertBroadcast
  cases row : (if a.row then create jsonb g.store a.id a.createdAt groupId input else none) with
  | none =>
    refine .rowRefused _ internal (fun refused => ?_)
    obtain ⟨s,b,taken,made,_⟩ := refused
    rw [if_pos taken,made] at row
    cases row
  | some pair =>
    obtain ⟨s,b⟩ := pair
    split at row <;> try contradiction
    next taken =>
    have key : b.id = a.id := (createId row).1
    dsimp only
    cases batch : (if a.batch then createRecipients s a.ids b.id input.recipients else none) with
    | none =>
      have lost : a.batch = false ∨ createRecipients s a.ids a.id input.recipients = none := by
        rw [key] at batch
        cases full : a.batch with
        | false => exact .inl rfl
        | true => exact .inr (by simpa [full] using batch)
      exact .batchRefused s b _ internal ⟨s,b,taken,row,lost⟩ (createGrows jsonb groupId input row)
    | some full =>
      refine .both _ _ rfl (fun refused => ?_)
      obtain ⟨s',b',_,made,lost⟩ := refused
      cases row.symm.trans made
      rw [key] at batch
      rcases lost with off | bad
      · simp [off] at batch
      · simp [bad] at batch

/-- A refused request leaves nothing behind just when it is not refused between the two inserts: then the row of the
broadcast stays, without its recipients. -/
theorem refusalLeavesNothing : (400 ≤ (broadcastCreate jsonb g tenant group body a).2.status →
      Untouched g (broadcastCreate jsonb g tenant group body a).1) ↔
    ¬ ∃ groupId input, validated g tenant group body a = some (groupId,input) ∧
      BatchRefused jsonb g groupId input a := by
  rcases createValidated jsonb g tenant group body a with ⟨invalid,same,_⟩ | ⟨groupId,input,valid,reached⟩
  · rw [invalid,same]
    exact ⟨fun _ valid => (by obtain ⟨_,_,made,_⟩ := valid; cases made),fun _ _ => ⟨rfl,rfl,rfl,rfl⟩⟩
  · have only : (∃ groupId input, validated g tenant group body a = some (groupId,input) ∧
        BatchRefused jsonb g groupId input a) ↔ BatchRefused jsonb g groupId input a := by
      rw [valid]
      exact ⟨fun refused => (by obtain ⟨_,_,made,refused⟩ := refused; cases made; exact refused),
        fun refused => ⟨groupId,input,rfl,refused⟩⟩
    rw [only,reached]
    have ends := inserts jsonb g a groupId input
    revert ends
    generalize insertBroadcast jsonb g groupId input a = result
    intro ends
    cases ends with
    | rowRefused response error whole => exact ⟨fun _ => whole,fun _ _ => ⟨rfl,rfl,rfl,rfl⟩⟩
    | batchRefused s b response error refused grown =>
      refine ⟨fun clean => ?_,fun whole => absurd refused whole⟩
      have same := (clean error).broadcasts
      simp [write,grown] at same
    | both t response accepted whole =>
      refine ⟨fun _ => whole,fun _ error => ?_⟩
      have high : 400 ≤ response.status := error
      rw [accepted] at high
      exact absurd high (by decide)

end Create

def campaignTables : Tables := ⟨[sampleGroup],[sampleInstance],[],[],[]⟩

def campaign (recipients : List String) : Json :=
  .obj [(text "recipients",.arr (recipients.map (fun r => .str (text r)))),(text "type",.str (text "text")),
    (text "content",sampleContent)]

def overlong : System × Response :=
  broadcastCreate some (boot campaignTables) (some 100) (sampleParam 1)
    (some (campaign ["5511999999999","551199999999912345678"])) ⟨true,true,true,21,0,[31,32]⟩

theorem overlongStays : overlong.2.status = 500 ∧ overlong.1.store.broadcasts.length = 1 ∧
    overlong.1.store.recipients = [] ∧
    ¬ (400 ≤ overlong.2.status → Untouched (boot campaignTables) overlong.1) := by
  have status : overlong.2.status = 500 := by decide +kernel
  have stays : overlong.1.store.broadcasts.length = 1 := by decide +kernel
  refine ⟨status,stays,by decide +kernel,fun clean => ?_⟩
  have same := congrArg List.length (clean (by rw [status]; decide)).broadcasts
  rw [stays] at same
  cases same

end WppGateway.RefusedCreate
