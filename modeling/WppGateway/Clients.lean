import WppGateway.Manager
import WppGateway.Runs

/-! Every live client is the client of its instance's entry, as long as no call puts a
connection over a live client. -/
namespace WppGateway.Clients
open Domain Table Resources Manager Runs

/- A restart is a stop and a start, which other calls may separate. The sockets go down and come up, and the
rows change, as they like. -/
inductive Event where
  | start (id : UUID) (a : Attempt)
  | pair (id : UUID) (a : Attempt)
  | stop (id : UUID)
  | restart (id : UUID) (a : Attempt)
  | disconnectAll
  | socket (client : Nat) (online : Bool)
  | tables (rows : Rows)

def step (s : Managed) : Event → Option Managed
  | .start id a => some (startInstance s id a).1
  | .pair id a => some (pairPhone s id a).1
  | .stop id => some (stopInstance s id)
  | .restart id a => some (restartInstance s id a).1
  | .disconnectAll => some (disconnectAll s)
  | .socket client online => some {s with clients := s.clients.modify client (fun k => {k with online := online})}
  | .tables rows => some {s with rows := rows}

def clientOf (s : Managed) (id : UUID) : Option Nat := (connectionOf s id).map Connection.client

def NoOrphans (s : Managed) : Prop :=
  ∀ (i : Nat) (k : Client), s.clients[i]? = some k → k.live = true → clientOf s k.instanceId = some i

def OnePerInstance (s : Managed) : Prop :=
  ∀ (i j : Nat) (k l : Client), s.clients[i]? = some k → s.clients[j]? = some l → k.live = true → l.live = true →
    k.instanceId = l.instanceId → i = j

def NoneAfterAll (_ : Managed) (e : Event) (t : Managed) : Prop :=
  match e with
  | .disconnectAll => ∀ k ∈ t.clients, k.live = false
  | _ => True

def Unused (s : Managed) (id : UUID) : Prop := ∀ k ∈ s.clients, k.instanceId = id → k.live = false

instance (s : Managed) (id : UUID) : Decidable (Unused s id) := by unfold Unused; infer_instance

def known (s : Managed) (id : UUID) (a : Attempt) : Bool := match device s id a with
  | .ok _ => true
  | .error _ => false

/- A connection is made only for an instance without a live client, and a client that has connected is not
given up because the pairing fails. -/
def Safe (s : Managed) : Event → Prop
  | .start id a => (connectionOf s id).any (isConnected s) = false → known s id a = true → Unused s id
  | .pair id a => known s id a = true → Unused s id ∧ (a.connect = none → a.pairing.toBool = true)
  | _ => True

instance (s : Managed) (e : Event) : Decidable (Safe s e) := by
  cases e <;> unfold Safe <;> infer_instance

section Calls
variable {s t : Managed} {id : UUID}

structure Opened (s : Managed) (id : UUID) (live kept : Bool) (t : Managed) : Prop where
  clients : t.clients = s.clients ++ [⟨id,live,live⟩]
  entry : ∀ other, clientOf t other =
    if other = id then (if kept then some s.clients.length else none) else clientOf s other

theorem openedExact {live kept : Bool} (inv : NoOrphans s) (opened : Opened s id live kept t) :
    NoOrphans t ↔ Unused s id ∧ (live = true → kept = true) := by
  constructor
  · intro good
    refine ⟨fun k member own => ?_,fun lives => ?_⟩
    · -- the entry of the instance names the new client, or is gone
      by_contra lives
      obtain ⟨i,found⟩ := List.mem_iff_getElem?.mp member
      have below : i < s.clients.length := (List.getElem?_eq_some_iff.mp found).1
      have entry := good i k (by rw [opened.clients,List.getElem?_append_left below,found]) (by simpa using lives)
      rw [opened.entry,if_pos own] at entry
      split at entry <;> cases entry
      exact Nat.lt_irrefl _ below
    · have entry := good s.clients.length ⟨id,live,live⟩ (by rw [opened.clients]; simp) lives
      rw [opened.entry,if_pos rfl] at entry
      split at entry
      · assumption
      · cases entry
  · intro both i k found lives
    obtain ⟨unused,kept⟩ := both
    rw [opened.clients] at found
    rcases Nat.lt_trichotomy i s.clients.length with below | rfl | above
    · rw [List.getElem?_append_left below] at found
      have other : k.instanceId ≠ id := by
        intro own
        rw [unused k (List.mem_of_getElem? found) own] at lives
        cases lives
      rw [opened.entry,if_neg other]
      exact inv i k found lives
    · simp only [List.getElem?_concat_length,Option.some.injEq] at found
      cases found
      rw [opened.entry,if_pos rfl,if_pos (kept lives)]
    · rw [List.getElem?_eq_none (by simp; omega)] at found
      cases found

theorem deviceKnown {a : Attempt} {inst : InstanceRow} (found : device s id a = .ok inst) : known s id a = true := by
  simp only [known,found]

theorem deviceUnknown {a : Attempt} {error : String} (failed : device s id a = .error error) : known s id a = false := by
  simp only [known,failed]

theorem startCases (s : Managed) (id : UUID) (a : Attempt) :
    (((connectionOf s id).any (isConnected s) = true ∨ known s id a = false) ∧ (startInstance s id a).1 = s) ∨
      ((connectionOf s id).any (isConnected s) = false ∧ known s id a = true ∧
        ∃ live, Opened s id live live (startInstance s id a).1) := by
  unfold startInstance
  split
  · next connected => exact .inl ⟨.inl connected,rfl⟩
  · next free =>
    split
    · next failed => exact .inl ⟨.inr (deviceUnknown failed),rfl⟩
    · next inst found =>
      refine .inr ⟨by simpa using free,deviceKnown found,?_⟩
      dsimp only
      split
      · exact ⟨false,by simp,fun other => (by simp [clientOf]; split <;> rfl)⟩
      · exact ⟨true,clientsGoLive (by simp),fun other => (by simp [clientOf]; split <;> rfl)⟩

theorem pairCases (s : Managed) (id : UUID) (a : Attempt) :
    (known s id a = false ∧ (pairPhone s id a).1 = s) ∨ (known s id a = true ∧
      Opened s id a.connect.isNone (a.connect.isNone && a.pairing.toBool) (pairPhone s id a).1) := by
  unfold pairPhone
  split
  · next failed => exact .inl ⟨deviceUnknown failed,rfl⟩
  · next inst found =>
    refine .inr ⟨deviceKnown found,?_⟩
    dsimp only
    split
    · next failed => rw [failed]; exact ⟨by simp,fun other => (by simp [clientOf]; split <;> rfl)⟩
    · next connected =>
      rw [connected]
      split
      · next failed =>
        rw [failed]
        exact ⟨by rw [clientsUnregister]; exact clientsGoLive rfl,
          fun other => (by simp [clientOf,Except.toBool]; split <;> rfl)⟩
      · next paired =>
        rw [paired]
        exact ⟨clientsGoLive rfl,fun other => (by simp [clientOf,Except.toBool]; split <;> rfl)⟩

theorem disconnectLive {clients : List Client} {i j : Nat} {k : Client} (found : (disconnect clients j)[i]? = some k)
    (lives : k.live = true) : i ≠ j ∧ clients[i]? = some k := by
  obtain ⟨old,there,rfl⟩ := modifySource found
  split at lives
  · cases lives
  · next other => exact ⟨Ne.symm other,by rw [there,if_neg other]⟩

theorem disconnectAllLive {connections : List Connection} {clients : List Client} {i : Nat} {k : Client}
    (found : (connections.foldl (fun clients c => disconnect clients c.client) clients)[i]? = some k)
    (lives : k.live = true) : clients[i]? = some k ∧ ∀ c ∈ connections, c.client ≠ i := by
  induction connections generalizing clients with
  | nil => exact ⟨found,fun _ member => (by cases member)⟩
  | cons c rest ih =>
    obtain ⟨there,later⟩ := ih found
    obtain ⟨other,there⟩ := disconnectLive there lives
    refine ⟨there,fun d member => ?_⟩
    rcases List.mem_cons.mp member with rfl | inside
    · exact Ne.symm other
    · exact later d inside

theorem stopKeeps (inv : NoOrphans s) (id : UUID) : NoOrphans (stopInstance s id) ∧ Unused (stopInstance s id) id := by
  have none_ : NoOrphans (stopInstance s id) ∧ clientOf (stopInstance s id) id = none := by
    unfold stopInstance
    split
    · next absent => exact ⟨inv,by rw [clientOf,absent]; rfl⟩
    · next c entry =>
      refine ⟨fun i k found lives => ?_,?_⟩
      · obtain ⟨other,there⟩ := disconnectLive found lives
        have client := inv i k there lives
        have apart : k.instanceId ≠ id := by
          intro own
          rw [own,clientOf,entry] at client
          exact other (Option.some.inj client).symm
        exact (congrArg _ ((connectionUnregister s id k.instanceId).trans (if_neg apart))).trans client
      · exact congrArg (Option.map Connection.client) ((connectionUnregister s id id).trans (if_pos rfl))
  refine ⟨none_.1,fun k member own => ?_⟩
  by_contra lives
  obtain ⟨i,found⟩ := List.mem_iff_getElem?.mp member
  have client := none_.1 i k found (by simpa using lives)
  rw [own,none_.2] at client
  cases client

theorem allDisconnected (inv : NoOrphans s) : ∀ k ∈ (disconnectAll s).clients, k.live = false := by
  intro k member
  by_contra lives
  obtain ⟨i,found⟩ := List.mem_iff_getElem?.mp member
  obtain ⟨there,apart⟩ := disconnectAllLive found (by simpa using lives)
  have client := inv i k there (by simpa using lives)
  simp only [clientOf,connectionOf,Option.map_eq_some_iff] at client
  obtain ⟨c,entry,same⟩ := client
  exact apart c (List.mem_of_find?_eq_some entry) same

theorem onePerInstance (inv : NoOrphans s) : OnePerInstance s := by
  intro i j k l left right livesLeft livesRight same
  have first := inv i k left livesLeft
  rw [same,inv j l right livesRight] at first
  exact (Option.some.inj first).symm

end Calls

theorem stepTotal (s : Managed) (e : Event) : ∃ t, step s e = some t := by
  cases e <;> exact ⟨_,rfl⟩

theorem startExact {s : Managed} (inv : NoOrphans s) (id : UUID) (a : Attempt) :
    NoOrphans (startInstance s id a).1 ↔ Safe s (.start id a) := by
  rcases startCases s id a with ⟨refused,same⟩ | ⟨free,found,live,opened⟩
  · rw [same]
    refine ⟨fun _ free found => ?_,fun _ => inv⟩
    rcases refused with connected | unknown
    · rw [connected] at free; cases free
    · rw [unknown] at found; cases found
  · rw [openedExact inv opened]
    exact ⟨fun both _ _ => both.1,fun safe => ⟨safe free found,fun lives => lives⟩⟩

theorem pairExact {s : Managed} (inv : NoOrphans s) (id : UUID) (a : Attempt) :
    NoOrphans (pairPhone s id a).1 ↔ Safe s (.pair id a) := by
  rcases pairCases s id a with ⟨unknown,same⟩ | ⟨found,opened⟩
  · rw [same]
    exact ⟨fun _ found => (by rw [unknown] at found; cases found),fun _ => inv⟩
  · rw [openedExact inv opened]
    simp only [Safe,found,Option.isNone_iff_eq_none,Bool.and_eq_true,forall_const]
    exact and_congr_right fun _ =>
      ⟨fun kept connected => (kept connected).2,fun paired connected => ⟨connected,paired connected⟩⟩

theorem stepExact (s : Managed) (e : Event) (t : Managed) (inv : NoOrphans s) (moved : step s e = some t) :
    NoOrphans t ↔ Safe s e := by
  cases e with
  | start id a => cases moved; exact startExact inv id a
  | pair id a => cases moved; exact pairExact inv id a
  | stop id => cases moved; exact ⟨fun _ => trivial,fun _ => (stopKeeps inv id).1⟩
  | restart id a =>
    cases moved
    obtain ⟨kept,unused⟩ := stopKeeps inv id
    exact ⟨fun _ => trivial,fun _ => (startExact kept id a).mpr (fun _ _ => unused)⟩
  | disconnectAll =>
    cases moved
    refine ⟨fun _ => trivial,fun _ i k found lives => ?_⟩
    rw [allDisconnected inv k (List.mem_of_getElem? found)] at lives
    cases lives
  | socket client online =>
    cases moved
    refine ⟨fun _ => trivial,fun _ i k found lives => ?_⟩
    obtain ⟨old,there,rfl⟩ := modifySource found
    split at lives
    · next same => rw [if_pos same]; exact inv i old there lives
    · next other => rw [if_neg other]; exact inv i old there lives
  | tables rows => cases moved; exact ⟨fun _ => trivial,fun _ => inv⟩

/-- Every live client is the client of its instance's entry throughout a run exactly when no connection is made over a
live client and no pairing fails on a client that has connected. Then an instance has one live client at most, and
DisconnectAll leaves none. -/
theorem clientsRegistered {s : Managed} (empty : s.clients = []) (events : List Event) :
    (Throughout step NoOrphans s events ∧ Throughout step OnePerInstance s events ∧ EveryStep step NoneAfterAll s events) ↔
      Guarded step Safe s events := by
  have start : NoOrphans s := by
    intro i k found
    rw [empty] at found
    cases found
  obtain ⟨u,ran⟩ := runTotal stepTotal s events
  have exact_ := exactGuard stepExact start ran
  refine ⟨fun all => exact_.mp all.1,fun safe => ?_⟩
  refine ⟨exact_.mpr safe,throughoutMono (fun _ => onePerInstance) (exact_.mpr safe),?_⟩
  refine guardedSteps (fun s e t inv ok moved => (stepExact s e t inv moved).mpr ok) ?_ start safe
  intro s e t inv _ moved
  cases e with
  | disconnectAll => cases moved; exact allDisconnected inv
  | _ => trivial

def inTurn : List Event :=
  [.start 11 succeeds,.start 11 succeeds,.restart 11 succeeds,.stop 11,.pair 11 succeeds,.disconnectAll]

theorem inTurnRegistered :
    Throughout step NoOrphans (idle sampleRows) inTurn ∧ Throughout step OnePerInstance (idle sampleRows) inTurn ∧
      EveryStep step NoneAfterAll (idle sampleRows) inTurn :=
  (clientsRegistered rfl inTurn).mpr (guardedChecks (by decide +kernel))

def whileReconnecting : List Event := [.start 11 succeeds,.socket 0 false,.start 11 succeeds,.socket 0 true]

theorem orphanedClient :
    (run step (idle sampleRows) whileReconnecting).map (fun s => (s.clients,s.connections)) =
      some ([⟨11,true,true⟩,⟨11,true,true⟩],[⟨11,1,1⟩]) ∧
    ¬ Throughout step NoOrphans (idle sampleRows) whileReconnecting := by
  have ends : (run step (idle sampleRows) whileReconnecting).map (fun s => (s.clients,s.connections)) =
      some ([⟨11,true,true⟩,⟨11,true,true⟩],[⟨11,1,1⟩]) := by decide +kernel
  refine ⟨ends,fun always => ?_⟩
  obtain ⟨s,ran,same⟩ := Option.map_eq_some_iff.mp ends
  obtain ⟨clients,connections⟩ := Prod.mk.inj same
  have entry := throughoutEnd always ran 0 ⟨11,true,true⟩ (by rw [clients]; rfl) rfl
  rw [clientOf,connectionOf,connections] at entry
  exact absurd entry (by decide)

end WppGateway.Clients
