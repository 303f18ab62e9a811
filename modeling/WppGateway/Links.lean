import WppGateway.Manager

/-! The map of connections and its clients as one thing: what the entry of an instance is worth. A call of the manager
changes the entry of its own instance and the status in its row, in the same way in all states that have the same of
the two. -/
namespace WppGateway.Links
open Domain Table Resources Manager

def link (m : Managed) (id : UUID) : Option (UUID × Bool) :=
  (connectionOf m id).map (fun c => (c.groupId,isConnected m c))

structure Wired (m : Managed) : Prop where
  entries : Distinct Connection.id m.connections
  clients : ∀ c ∈ m.connections, (m.clients[c.client]?).map Client.instanceId = some c.id

def touched (status : Option InstanceStatus) (i : InstanceRow) : InstanceRow := {i with status := status.getD i.status}

structure Rewired (m : Managed) (id : UUID) (status : Option InstanceStatus) (entry : Option (UUID × Bool)) (n : Managed) :
    Prop where
  rows : n.rows = {m.rows with instances := update (fun i : InstanceRow => i.id) id (touched status) m.rows.instances}
  links : ∀ other, link n other = if other = id then entry else link m other
  wired : Wired n
  kept : ∀ c ∈ n.connections, c.id = id ∨ c ∈ m.connections

section Calls
variable {m n o : Managed} {id : UUID} {status later : Option InstanceStatus} {entry last : Option (UUID × Bool)}

theorem rewiredTrans (first : Rewired m id status entry n) (second : Rewired n id later last o) :
    Rewired m id (later.orElse (fun _ => status)) last o := by
  refine ⟨?_,fun other => ?_,second.wired,fun c member => ?_⟩
  · rw [second.rows,first.rows]
    simp only [update,List.map_map]
    congr 2
    funext i
    by_cases own : i.id = id
    · cases later <;> simp [touched,own]
    · simp [own]
  · rw [second.links,first.links]
    split <;> rfl
  · rcases second.kept c member with own | old
    · exact .inl own
    · exact first.kept c old

theorem untouched (rows : List InstanceRow) (id : UUID) : update (fun i : InstanceRow => i.id) id (touched none) rows = rows :=
  updateSame.mpr (fun _ _ _ => rfl)

theorem rewiredRefl (wired : Wired m) (id : UUID) : Rewired m id none (link m id) m :=
  ⟨by rw [untouched],fun other => (by by_cases same : other = id <;> simp [same]),wired,fun _ member => .inr member⟩

theorem otherClient (wired : Wired m) {c d : Connection} (first : c ∈ m.connections) (second : d ∈ m.connections)
    (apart : c.id ≠ d.id) : c.client ≠ d.client := by
  intro same
  have mine := wired.clients c first
  rw [same,wired.clients d second] at mine
  exact apart (Option.some.inj mine).symm

theorem registered (wired : Wired m) (id groupId : UUID) :
    Rewired m id none (some (groupId,false)) (register m id groupId) := by
  refine ⟨by rw [untouched]; rfl,fun other => ?_,⟨?_,fun c member => ?_⟩,fun c member => ?_⟩
  · simp only [link,connectionRegister]
    split
    · simp [isConnected,register]
    · cases found : connectionOf m other with
      | none => rfl
      | some c =>
        have own := wired.clients c (findMember found).1
        have inside : c.client < m.clients.length := by
          by_contra outside
          rw [List.getElem?_eq_none (by omega)] at own
          cases own
        simp only [Option.map_some,isConnected,register,List.getElem?_append_left inside]
  · refine distinctAppend (distinctFilter wired.entries _) (List.nodup_singleton _) (fun a new b old same => ?_)
    cases List.mem_singleton.mp new
    have apart := (List.mem_filter.mp old).2
    rw [same] at apart
    simp at apart
  · rcases List.mem_append.mp member with old | new
    · have own := wired.clients c (List.mem_filter.mp old).1
      have inside : c.client < m.clients.length := by
        by_contra outside
        rw [List.getElem?_eq_none (by omega)] at own
        cases own
      simp only [register,List.getElem?_append_left inside]
      exact own
    · cases List.mem_singleton.mp new
      simp [register]
  · rcases List.mem_append.mp member with old | new
    · exact .inr (List.mem_filter.mp old).1
    · cases List.mem_singleton.mp new
      exact .inl rfl

theorem unregistered (wired : Wired m) (id : UUID) : Rewired m id none none (unregister m id) := by
  refine ⟨by rw [untouched]; rfl,fun other => ?_,⟨distinctFilter wired.entries _,fun c member => ?_⟩,fun c member => ?_⟩
  · simp only [link,connectionUnregister]
    split <;> rfl
  · exact wired.clients c (List.mem_filter.mp member).1
  · exact .inr (List.mem_filter.mp member).1

theorem modified (wired : Wired m) {c : Connection} (found : connectionOf m id = some c) {f : Client → Client}
    (owner : ∀ k, (f k).instanceId = k.instanceId) {online : Bool} (becomes : ∀ k, ((f k).live && (f k).online) = online) :
    Rewired m id none (some (c.groupId,online)) {m with clients := m.clients.modify c.client f} := by
  obtain ⟨member,here⟩ := findMember found
  refine ⟨by rw [untouched],fun other => ?_,⟨wired.entries,fun d inside => ?_⟩,fun d inside => .inr inside⟩
  · change ((connectionOf m other).map _) = _
    split
    · next same =>
      rw [same,found]
      have own := wired.clients c member
      obtain ⟨k,at_,_⟩ := Option.map_eq_some_iff.mp own
      simp only [Option.map_some,isConnected,List.getElem?_modify,if_pos,at_,Option.map_eq_map,Option.any_some,becomes]
    · next different =>
      cases there : connectionOf m other with
      | none => rw [link,there]; rfl
      | some d =>
        obtain ⟨inside,same⟩ := findMember there
        have apart : c.client ≠ d.client := otherClient wired member inside (fun equal => different
          (same.symm.trans (equal.symm.trans here)))
        rw [link,there]
        simp [isConnected,List.getElem?_modify,apart]
  · simp only [List.getElem?_modify,Option.map_eq_map,Option.map_map]
    rw [← wired.clients d inside]
    congr 1
    funext k
    simp only [Function.comp_apply]
    split
    · exact owner k
    · rfl

theorem updated (wired : Wired m) (id : UUID) (status : InstanceStatus) (ok : Bool) :
    Rewired m id (if ok then some status else none) (link m id) (updateStatus m id status ok) := by
  cases ok with
  | false => exact rewiredRefl wired id
  | true =>
    refine ⟨rfl,fun other => ?_,⟨wired.entries,wired.clients⟩,fun _ member => .inr member⟩
    by_cases same : other = id
    · rw [if_pos same,same]; rfl
    · rw [if_neg same]; rfl

theorem opened (wired : Wired m) (id groupId : UUID) (ok : Bool) :
    Rewired m id (if ok then some .connecting else none) (some (groupId,false))
      (updateStatus (register m id groupId) id .connecting ok) := by
  have made := registered wired id groupId
  have entry : link (register m id groupId) id = some (groupId,false) := by rw [made.links,if_pos rfl]
  have both := rewiredTrans made (updated made.wired id .connecting ok)
  rw [entry] at both
  cases ok <;> exact both

theorem liveAfter (id groupId : UUID) (client : Nat) (wired : Wired m) (found : connectionOf m id = some ⟨id,groupId,client⟩) :
    Rewired m id none (some (groupId,true)) (goLive m client) :=
  modified wired found (f := fun k => {k with live := true, online := true}) (fun _ => rfl) (fun _ => rfl)

theorem stopped (wired : Wired m) (id : UUID) : Rewired m id none none (stopInstance m id) := by
  unfold stopInstance
  split
  · next absent =>
    have gone : link m id = none := by rw [link,absent]; rfl
    have same := rewiredRefl wired id
    rwa [gone] at same
  · next c found =>
    have off := modified wired found (f := fun k => {k with live := false, online := false}) (fun _ => rfl) (fun _ => rfl)
    exact rewiredTrans off (unregistered off.wired id)

end Calls

section Added
variable {m n : Managed} {id : UUID}

def clientOwners (m : Managed) : List UUID := m.clients.map Client.instanceId

structure Extends (m : Managed) (id : UUID) (n : Managed) : Prop where
  connections : ∀ k ∈ n.connections, k ∈ m.connections ∨ ∃ i ∈ m.rows.instances, k.id = i.id ∧ k.groupId = i.groupId
  clients : clientOwners n = clientOwners m ∨ clientOwners n = clientOwners m ++ [id]

theorem Extends.grows (made : Extends m id n) : clientOwners m <+: clientOwners n := by
  rcases made.clients with same | more
  · exact same ▸ List.prefix_rfl
  · rw [more]; exact List.prefix_append _ _

theorem ownerKept {client : Nat} (grows : clientOwners m <+: clientOwners n) (owner : (clientOwners m)[client]? = some id) :
    (clientOwners n)[client]? = some id := by
  obtain ⟨rest,same⟩ := grows
  obtain ⟨inside,_⟩ := List.getElem?_eq_some_iff.mp owner
  rw [← same,List.getElem?_append_left inside]
  exact owner

theorem extendsRefl (m : Managed) (id : UUID) : Extends m id m := ⟨fun _ member => .inl member,.inl rfl⟩

theorem extendsRegister {inst : InstanceRow} (found : instanceById m.rows id = some inst) :
    Extends m id (register m id inst.groupId) := by
  obtain ⟨member,here⟩ := findMember found
  refine ⟨fun k inside => ?_,.inr ?_⟩
  · rcases List.mem_append.mp inside with old | last
    · exact .inl (List.mem_filter.mp old).1
    · cases List.mem_singleton.mp last
      exact .inr ⟨inst,member,here.symm,rfl⟩
  · rw [clientOwners,clientsRegister,List.map_append]
    rfl

theorem ownersModify (clients : List Client) (client : Nat) {f : Client → Client} (kept : ∀ k, (f k).instanceId = k.instanceId) :
    (clients.modify client f).map Client.instanceId = clients.map Client.instanceId := by
  refine List.ext_getElem? (fun n => ?_)
  simp only [List.getElem?_map,List.getElem?_modify]
  cases clients[n]? with
  | none => rfl
  | some k =>
    simp only [Option.map_eq_map,Option.map_some]
    split
    · rw [kept]
    · rfl

theorem wiredModify (wired : Wired m) (client : Nat) {f : Client → Client} (kept : ∀ k, (f k).instanceId = k.instanceId) :
    Wired {m with clients := m.clients.modify client f} := by
  refine ⟨wired.entries,fun c member => ?_⟩
  have own := wired.clients c member
  rw [← List.getElem?_map] at own ⊢
  exact (congrArg (·[c.client]?) (ownersModify m.clients client kept)).trans own

theorem extendsModify (made : Extends m id n) (client : Nat) {f : Client → Client}
    (kept : ∀ k, (f k).instanceId = k.instanceId) : Extends m id {n with clients := n.clients.modify client f} :=
  ⟨made.connections,by rw [clientOwners,ownersModify _ _ kept]; exact made.clients⟩

theorem extendsLive (made : Extends m id n) (client : Nat) : Extends m id (goLive n client) :=
  extendsModify made client (f := fun k => {k with live := true, online := true}) (fun _ => rfl)

theorem extendsUnregister (made : Extends m id n) : Extends m id (unregister n id) :=
  ⟨fun k member => made.connections k (List.mem_filter.mp member).1,made.clients⟩

theorem extendsStatus (made : Extends m id n) (status : InstanceStatus) (ok : Bool) :
    Extends m id (updateStatus n id status ok) := by
  cases ok <;> exact ⟨made.connections,made.clients⟩

theorem extendsStart (m : Managed) (id : UUID) (a : Attempt) : Extends m id (startInstance m id a).1 := by
  unfold startInstance
  split
  · exact extendsRefl m id
  split
  · exact extendsRefl m id
  next inst found =>
  have opened := extendsStatus (extendsRegister (deviceRow found)) .connecting a.connecting
  dsimp only
  split
  · exact extendsStatus (extendsUnregister opened) .disconnected a.disconnected
  · exact extendsLive opened _

theorem extendsPair (m : Managed) (id : UUID) (a : Attempt) : Extends m id (pairPhone m id a).1 := by
  unfold pairPhone
  split
  · exact extendsRefl m id
  next inst found =>
  have opened := extendsRegister (deviceRow found)
  dsimp only
  split
  · exact extendsUnregister opened
  split
  · exact extendsUnregister (extendsLive opened _)
  · exact extendsLive opened _

theorem extendsStop (m : Managed) (id : UUID) : Extends m id (stopInstance m id) := by
  unfold stopInstance
  split
  · exact extendsRefl m id
  · next c _ =>
    have off := extendsModify (extendsRefl m id) c.client (f := fun k => {k with live := false, online := false}) (fun _ => rfl)
    exact extendsUnregister off

end Added

/-! Two states that have the same entry and the same row of an instance. -/

section Alike
variable {m n : Managed} {id : UUID} {a : Attempt}

structure Alike (m n : Managed) (id : UUID) : Prop where
  left : Wired m
  right : Wired n
  entry : link n id = link m id
  row : instanceById n.rows id = instanceById m.rows id

def Matches {ρ : Type} (m n : Managed) (id : UUID) (x y : Managed × ρ) : Prop :=
  y.2 = x.2 ∧ ∃ status entry, Rewired m id status entry x.1 ∧ Rewired n id status entry y.1

theorem connectedLink (m : Managed) (id : UUID) : (connectionOf m id).any (isConnected m) = (link m id).any Prod.snd := by
  rw [link]
  cases connectionOf m id <;> rfl

theorem deviceAlike (alike : Alike m n id) (a : Attempt) : device n id a = device m id a := by
  unfold device
  rw [alike.row]

theorem matchesSame {ρ : Type} (alike : Alike m n id) (answer : ρ) : Matches m n id (m,answer) (n,answer) := by
  refine ⟨rfl,none,link m id,rewiredRefl alike.left id,?_⟩
  rw [← alike.entry]
  exact rewiredRefl alike.right id

theorem startMatches (alike : Alike m n id) (a : Attempt) : Matches m n id (startInstance m id a) (startInstance n id a) := by
  unfold startInstance
  rw [connectedLink,connectedLink,alike.entry,deviceAlike alike]
  split
  · exact matchesSame alike _
  split
  · exact matchesSame alike _
  next inst _ =>
  have left := opened alike.left id inst.groupId a.connecting
  have right := opened alike.right id inst.groupId a.connecting
  dsimp only
  split
  · -- the entry goes with the client that did not connect
    have off (k : Managed) (wired : Wired k) :
        Rewired k id (if a.disconnected then some .disconnected else none) none
          (updateStatus (unregister k id) id .disconnected a.disconnected) := by
      have gone := unregistered wired id
      have both := rewiredTrans gone (updated gone.wired id .disconnected a.disconnected)
      rw [show link (unregister k id) id = none by rw [gone.links,if_pos rfl]] at both
      cases flag : a.disconnected <;> simpa [flag] using both
    exact ⟨rfl,_,_,rewiredTrans left (off _ left.wired),rewiredTrans right (off _ right.wired)⟩
  · exact ⟨rfl,_,_,rewiredTrans left (liveAfter id inst.groupId m.clients.length left.wired (by simp)),
      rewiredTrans right (liveAfter id inst.groupId n.clients.length right.wired (by simp))⟩

theorem pairMatches (alike : Alike m n id) (a : Attempt) : Matches m n id (pairPhone m id a) (pairPhone n id a) := by
  unfold pairPhone
  rw [deviceAlike alike]
  split
  · exact matchesSame alike _
  next inst _ =>
  have left := registered alike.left id inst.groupId
  have right := registered alike.right id inst.groupId
  have liveLeft := liveAfter id inst.groupId m.clients.length left.wired (by simp)
  have liveRight := liveAfter id inst.groupId n.clients.length right.wired (by simp)
  dsimp only
  split
  · exact ⟨rfl,_,_,rewiredTrans left (unregistered left.wired id),rewiredTrans right (unregistered right.wired id)⟩
  split
  · exact ⟨rfl,_,_,rewiredTrans (rewiredTrans left liveLeft) (unregistered liveLeft.wired id),
      rewiredTrans (rewiredTrans right liveRight) (unregistered liveRight.wired id)⟩
  · exact ⟨rfl,_,_,rewiredTrans left liveLeft,rewiredTrans right liveRight⟩

theorem rewiredStart (wired : Wired m) (id : UUID) (a : Attempt) :
    ∃ status entry, Rewired m id status entry (startInstance m id a).1 := by
  obtain ⟨_,status,entry,rewired,_⟩ := startMatches ⟨wired,wired,rfl,rfl⟩ a
  exact ⟨status,entry,rewired⟩

theorem rewiredPair (wired : Wired m) (id : UUID) (a : Attempt) :
    ∃ status entry, Rewired m id status entry (pairPhone m id a).1 := by
  obtain ⟨_,status,entry,rewired,_⟩ := pairMatches ⟨wired,wired,rfl,rfl⟩ a
  exact ⟨status,entry,rewired⟩

end Alike

end WppGateway.Links
