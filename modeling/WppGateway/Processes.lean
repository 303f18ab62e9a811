import Mathlib.Data.List.Basic

/-! Processes of which one takes a step at a time: a lock that one of them holds, what
they still owe, and what they rely on. No program is named here. -/
namespace WppGateway.Processes
variable {π κ : Type} {processes : List π} {k : Nat} {p next : π}

def Exclusive (inside : π → Bool) (holder : Option Nat) (processes : List π) : Prop :=
  ∀ k p, processes[k]? = some p → inside p = true → holder = some k

def Covered (owes : π → κ → Prop) (settled : κ → Prop) (processes : List π) : Prop :=
  ∀ key, settled key ∨ ∃ p ∈ processes, owes p key

def Upheld (relies : π → κ → Prop) (holds : κ → Prop) (processes : List π) : Prop :=
  ∀ p ∈ processes, ∀ key, relies p key → holds key

theorem setFound (found : processes[k]? = some p) : (processes.set k next)[k]? = some next :=
  List.getElem?_set_self (List.getElem?_eq_some_iff.mp found).choose

theorem setSource {j : Nat} {q : π} (found : processes[k]? = some p) (there : (processes.set k next)[j]? = some q) :
    (j = k ∧ q = next) ∨ (j ≠ k ∧ processes[j]? = some q) := by
  by_cases same : j = k
  · subst same
    rw [setFound found] at there
    exact .inl ⟨rfl,(Option.some.inj there).symm⟩
  · rw [List.getElem?_set_ne (Ne.symm same)] at there
    exact .inr ⟨same,there⟩

theorem setMember (found : processes[k]? = some p) : next ∈ processes.set k next :=
  List.mem_iff_getElem?.mpr ⟨k,setFound found⟩

theorem setKeeps (next : π) {q : π} (found : processes[k]? = some p) (member : q ∈ processes) :
    q = p ∨ q ∈ processes.set k next := by
  obtain ⟨j,there⟩ := List.mem_iff_getElem?.mp member
  by_cases same : j = k
  · subst same
    exact .inl (Option.some.inj (there.symm.trans found))
  · exact .inr (List.mem_iff_getElem?.mpr ⟨j,by rwa [List.getElem?_set_ne (Ne.symm same)]⟩)

section Exclusive
variable {inside : π → Bool} {holder : Option Nat}

theorem exclusiveTakes (exclusive : Exclusive inside none processes) (found : processes[k]? = some p) :
    Exclusive inside (some k) (processes.set k next) := by
  intro j q there enters
  rcases setSource found there with ⟨rfl,_⟩ | ⟨_,old⟩
  · rfl
  · cases exclusive j q old enters

theorem exclusiveGives (exclusive : Exclusive inside holder processes) (found : processes[k]? = some p)
    (within : inside p = true) (leaves : inside next = false) : Exclusive inside none (processes.set k next) := by
  intro j q there enters
  rcases setSource found there with ⟨rfl,rfl⟩ | ⟨other,old⟩
  · rw [leaves] at enters; cases enters
  · have mine := exclusive k p found within
    rw [exclusive j q old enters] at mine
    exact absurd (Option.some.inj mine) other

theorem exclusiveStays (exclusive : Exclusive inside holder processes) (found : processes[k]? = some p)
    (same : inside next = true → inside p = true) : Exclusive inside holder (processes.set k next) := by
  intro j q there enters
  rcases setSource found there with ⟨rfl,rfl⟩ | ⟨_,old⟩
  · exact exclusive j p found (same enters)
  · exact exclusive j q old enters

theorem exclusiveJoins (exclusive : Exclusive inside holder processes) (outside : inside p = false) :
    Exclusive inside holder (processes ++ [p]) := by
  intro j q there enters
  rcases Nat.lt_or_ge j processes.length with below | above
  · rw [List.getElem?_append_left below] at there
    exact exclusive j q there enters
  · rw [List.getElem?_append_right above] at there
    rw [List.mem_singleton.mp (List.mem_of_getElem? there),outside] at enters
    cases enters

end Exclusive

theorem setOthers {q : π} (next : π) (other : q ∈ processes.eraseIdx k) : q ∈ processes.set k next := by
  obtain ⟨j,apart,there⟩ := List.mem_eraseIdx_iff_getElem?.mp other
  exact List.mem_iff_getElem?.mpr ⟨j,by rwa [List.getElem?_set_ne (Ne.symm apart)]⟩

theorem coveredMoves {owes : π → κ → Prop} {settled after : κ → Prop} (covered : Covered owes settled processes)
    (found : processes[k]? = some p)
    (moves : ∀ key, settled key ∨ owes p key →
      after key ∨ owes next key ∨ ∃ q ∈ processes.eraseIdx k, owes q key) : Covered owes after (processes.set k next) := by
  intro key
  have moved : settled key ∨ owes p key → after key ∨ ∃ q ∈ processes.set k next, owes q key := by
    intro due
    rcases moves key due with done | owed | ⟨q,other,owed⟩
    · exact .inl done
    · exact .inr ⟨next,setMember found,owed⟩
    · exact .inr ⟨q,setOthers next other,owed⟩
  rcases covered key with done | ⟨q,member,owed⟩
  · exact moved (.inl done)
  · rcases setKeeps next found member with rfl | other
    · exact moved (.inr owed)
    · exact .inr ⟨q,other,owed⟩

theorem coveredJoins {owes : π → κ → Prop} {settled after : κ → Prop} (covered : Covered owes settled processes)
    (stays : ∀ key, settled key → after key) (new : List π) : Covered owes after (processes ++ new) := by
  intro key
  rcases covered key with done | ⟨q,member,owed⟩
  · exact .inl (stays key done)
  · exact .inr ⟨q,List.mem_append_left _ member,owed⟩

theorem upheldMoves {relies : π → κ → Prop} {holds after : κ → Prop} (upheld : Upheld relies holds processes)
    (found : processes[k]? = some p)
    (stays : ∀ j q, j ≠ k → processes[j]? = some q → ∀ key, relies q key → holds key → after key)
    (starts : ∀ key, relies next key → after key) : Upheld relies after (processes.set k next) := by
  intro q member key relied
  obtain ⟨j,there⟩ := List.mem_iff_getElem?.mp member
  rcases setSource found there with ⟨_,rfl⟩ | ⟨other,old⟩
  · exact starts key relied
  · exact stays j q other old key relied (upheld q (List.mem_of_getElem? old) key relied)

theorem upheldJoins {relies : π → κ → Prop} {holds after : κ → Prop} (upheld : Upheld relies holds processes)
    (stays : ∀ key, holds key → after key) (none_ : ∀ key, ¬ relies p key) : Upheld relies after (processes ++ [p]) := by
  intro q member key relied
  rcases List.mem_append.mp member with old | new
  · exact stays key (upheld q old key relied)
  · rw [List.mem_singleton.mp new] at relied
    exact absurd relied (none_ key)

end WppGateway.Processes
