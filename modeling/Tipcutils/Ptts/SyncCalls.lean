import Tipcutils.Ptts.Rendezvous

/-!
# `Ptts.SyncCalls` — the single calls of a synchronisation

What one call of `sendSyncTIPC` or `recvSyncTIPC` can do, whatever configuration the nodes are in: it is made inside of the
current synchronisation or ends it (`Node.act_cases`), it does not depend on the calls that come later
(`Node.act_more`), and it brings the node forward (`Node.act_rank`). What arrives leaves the calls alone (`arrival`). In a
configuration, the side that receives a signal ends the synchronisation last (`Met.ending`), and while it is behind it
can go on (`Met.behind`).
-/

namespace Tipcutils
namespace Ptts

open Function

/-! ## Single synchronisation calls -/

variable {n n' : Node} {q : Party}

/-- A call is made inside of the current synchronisation, or ends it. -/
theorem Node.act_cases (hs : n.act q = some n') :
    (n'.todo = n.todo ∧ n'.completed = n.completed) ∨
      (∃ t, n.todo = t :: n'.todo) ∧ n'.completed = n.completed + 1 ∧ n'.pc = .idle ∧
        (n.pc = .acknowledged ∨ n.pc = .ended) := by
  unfold Node.act at hs
  split at hs
  · rename_i id _ _ _
    obtain rfl := Option.some.inj hs
    exact .inl (n.report_script true ⟨id, q, n.completed⟩)
  · split at hs
    · cases hs
    · obtain rfl := Option.some.inj hs
      exact .inl ⟨rfl, rfl⟩
  · rename_i id rest hpc htodo
    obtain rfl := Option.some.inj hs
    have hr := Node.report_script { n with own := n.own.erase ⟨id, q, n.completed⟩ } false ⟨id, q, n.completed⟩
    exact .inr ⟨⟨_, htodo⟩, congrArg (· + 1) hr.2, rfl, .inl hpc⟩
  · obtain rfl := Option.some.inj hs
    exact .inl ⟨rfl, rfl⟩
  · split at hs
    · cases hs
    · obtain rfl := Option.some.inj hs
      exact .inl ⟨rfl, rfl⟩
  · split at hs <;> obtain rfl := Option.some.inj hs <;> exact .inl ⟨rfl, rfl⟩
  · split at hs
    · cases hs
    · obtain rfl := Option.some.inj hs
      exact .inl ⟨rfl, rfl⟩
  · rename_i hpc htodo
    obtain rfl := Option.some.inj hs
    exact .inr ⟨⟨_, htodo⟩, rfl, rfl, .inr hpc⟩
  · cases hs

/-- The node of a party that has more to do after its program. -/
def Node.more (ts : List SyncStep) (n : Node) : Node := { n with todo := n.todo ++ ts }

@[simp] theorem Node.more_pc (ts : List SyncStep) : (n.more ts).pc = n.pc := rfl

@[simp] theorem Node.more_todo (ts : List SyncStep) : (n.more ts).todo = n.todo ++ ts := rfl

theorem Node.report_more (ts : List SyncStep) (b : Bool) (x : Name) :
    (n.more ts).report b x = (n.report b x).more ts := by
  rw [Node.report, Node.report, apply_ite (Node.more ts)]
  rfl

theorem Node.bind_more (ts : List SyncStep) (x : Name) : (n.more ts).bind x = (n.bind x).more ts := by
  simp only [Node.bind, Node.report_more]
  rfl

theorem Node.unbind_more (ts : List SyncStep) (x : Name) : (n.more ts).unbind x = (n.unbind x).more ts := by
  have hr := Node.report_more (n := { n with own := n.own.erase x }) ts false x
  exact congrArg (fun z : Node => { z with inbox := [], updates := n.updates ++ [Update.withdraw x] }) hr

theorem Node.learn_more (ts : List SyncStep) (u : Update) : (n.more ts).learn u = (n.learn u).more ts := by
  cases u with
  | publish x => exact congrArg (fun z : Node => { z with remote := z.remote ++ [x] }) (Node.report_more ts true x)
  | withdraw x => exact Node.report_more (n := { n with remote := n.remote.erase x }) ts false x

theorem Node.receive_more (ts : List SyncStep) (m : Ack) : (n.more ts).receive m = (n.receive m).more ts := by
  rw [Node.receive, Node.receive, apply_ite (Node.more ts)]
  rfl

theorem Node.act_more (ts : List SyncStep) (hs : n.act q = some n') : (n.more ts).act q = some (n'.more ts) := by
  unfold Node.act at hs ⊢
  split at hs
  · rename_i id rest hpc htodo
    obtain rfl := Option.some.inj hs
    simp only [Node.more_pc, Node.more_todo, hpc, htodo, List.cons_append]
    have hb := Node.bind_more (n := n) ts ⟨id, q, n.completed⟩
    exact congrArg (fun z : Node => some { z with pc := .bound }) hb
  · rename_i hpc
    simp only [Node.more_pc, hpc]
    split at hs
    · cases hs
    · rename_i m rest hinbox
      obtain rfl := Option.some.inj hs
      simp only [show (n.more ts).inbox = m :: rest from hinbox]
      rfl
  · rename_i id rest hpc htodo
    obtain rfl := Option.some.inj hs
    simp only [Node.more_pc, Node.more_todo, hpc, htodo, List.cons_append]
    have hu := Node.unbind_more (n := n) ts ⟨id, q, n.completed⟩
    exact (congrArg (fun z : Node => some (z.next (rest ++ ts))) hu).trans rfl
  · rename_i id rest hpc htodo
    obtain rfl := Option.some.inj hs
    simp only [Node.more_pc, Node.more_todo, hpc, htodo, List.cons_append]
    simp only [Node.more, htodo, List.cons_append]
    rfl
  · rename_i hpc
    simp only [Node.more_pc, hpc]
    split at hs
    · cases hs
    · rename_i e rest hevents
      obtain rfl := Option.some.inj hs
      simp only [show (n.more ts).events = e :: rest from hevents]
      rfl
  · rename_i id rest hpc htodo
    simp only [Node.more_pc, Node.more_todo, hpc, htodo, List.cons_append]
    split at hs <;> rename_i hfind <;> obtain rfl := Option.some.inj hs <;>
      simp only [show (n.more ts).find id = _ from hfind] <;> simp [Node.more, htodo]
  · rename_i hpc
    simp only [Node.more_pc, hpc]
    split at hs
    · cases hs
    · rename_i e rest hevents
      obtain rfl := Option.some.inj hs
      simp only [show (n.more ts).events = e :: rest from hevents]
      rfl
  · rename_i hpc htodo
    obtain rfl := Option.some.inj hs
    simp only [Node.more_pc, Node.more_todo, hpc, htodo, List.cons_append]
    rfl
  · cases hs

/-! ## Arrivals -/

/-- A change of the names adds events, and nothing else. -/
theorem Node.report_eq (n : Node) (b : Bool) (x : Name) : ∃ events, n.report b x = { n with events := events } := by
  unfold Node.report
  split
  · exact ⟨_, rfl⟩
  · exact ⟨n.events, rfl⟩

/-- An update changes what a node knows of the other, and adds events. -/
theorem Node.learn_eq (n : Node) (u : Update) :
    ∃ remote events, n.learn u = { n with remote := remote, events := events } := by
  cases u with
  | publish x =>
      obtain ⟨events, hr⟩ := n.report_eq true x
      exact ⟨_, events, congrArg (fun z : Node => { z with remote := z.remote ++ [x] }) hr⟩
  | withdraw x =>
      obtain ⟨events, hr⟩ := Node.report_eq { n with remote := n.remote.erase x } false x
      exact ⟨_, events, hr⟩

/-- To close the socket takes the name and what waits there away, and announces it. -/
theorem Node.unbind_eq (n : Node) (x : Name) :
    ∃ own events, n.unbind x =
      { n with own := own, events := events, inbox := [], updates := n.updates ++ [Update.withdraw x] } := by
  obtain ⟨events, hr⟩ := Node.report_eq { n with own := n.own.erase x } false x
  exact ⟨_, events,
    congrArg (fun z : Node => { z with inbox := [], updates := n.updates ++ [Update.withdraw x] }) hr⟩

theorem Node.receive_eq (n : Node) (m : Ack) : ∃ inbox, n.receive m = { n with inbox := inbox } := by
  unfold Node.receive
  split
  · exact ⟨_, rfl⟩
  · exact ⟨n.inbox, rfl⟩

/-- How many calls a synchronisation has at most before it, one more for each message it is still to send. -/
def SyncPc.left : SyncPc → ℕ
  | .idle => 5
  | .subscribed => 4
  | .bound | .detected => 3
  | .acknowledged => 2
  | .ackSent => 1
  | .ended | .failed _ => 0

/-- What a node has before it: its calls, and what is to arrive from it. -/
def Node.rank (n : Node) : ℕ := 6 * n.todo.length + n.pc.left + n.updates.length + n.acks.length

/-- What both nodes have before them. -/
def rank (s : State) : ℕ := (s .client).rank + (s .server).rank

theorem rank_update (s : State) (p : Party) (n : Node) : rank (update s p n) + (s p).rank = rank s + n.rank := by
  cases p <;> simp [rank] <;> omega

/-- Every call of a synchronisation brings it forward. -/
theorem Node.act_rank (hs : n.act q = some n') : n'.rank < n.rank := by
  unfold Node.act at hs
  split at hs
  · rename_i id _ hpc htodo
    obtain rfl := Option.some.inj hs
    obtain ⟨events, hr⟩ := n.report_eq true ⟨id, q, n.completed⟩
    simp only [Node.rank, Node.bind, hr, hpc, SyncPc.left, List.length_append, List.length_singleton]
    omega
  · rename_i hpc
    split at hs
    · cases hs
    · obtain rfl := Option.some.inj hs
      simp only [Node.rank, hpc]
      split <;> simp only [SyncPc.left] <;> omega
  · rename_i id rest hpc htodo
    obtain rfl := Option.some.inj hs
    obtain ⟨own, events, hu⟩ := n.unbind_eq ⟨id, q, n.completed⟩
    rw [hu]
    simp only [Node.rank, Node.next, hpc, htodo, SyncPc.left, List.length_append, List.length_cons, List.length_nil]
    omega
  · rename_i hpc htodo
    obtain rfl := Option.some.inj hs
    simp only [Node.rank, hpc, SyncPc.left]
    omega
  · rename_i hpc
    split at hs
    · cases hs
    · obtain rfl := Option.some.inj hs
      simp only [Node.rank, hpc]
      split <;> simp only [SyncPc.left] <;> omega
  · rename_i hpc htodo
    split at hs <;> obtain rfl := Option.some.inj hs <;>
      simp only [Node.rank, hpc, SyncPc.left, List.length_append, List.length_singleton] <;> omega
  · rename_i hpc
    split at hs
    · cases hs
    · obtain rfl := Option.some.inj hs
      simp only [Node.rank, hpc]
      split <;> simp only [SyncPc.left] <;> omega
  · rename_i hpc htodo
    obtain rfl := Option.some.inj hs
    simp only [Node.rank, Node.next, hpc, htodo, SyncPc.left, List.length_cons]
    omega
  · cases hs

/-- What an arrival leaves alone. -/
structure SameCalls (s s' : State) : Prop where
  todo : ∀ p, (s' p).todo = (s p).todo
  completed : ∀ p, (s' p).completed = (s p).completed
  pc : ∀ p, (s' p).pc = (s p).pc

theorem sameCalls_update {s : State} {p : Party} {n : Node} (htodo : n.todo = (s p).todo)
    (hcompleted : n.completed = (s p).completed) (hpc : n.pc = (s p).pc) : SameCalls s (update s p n) := by
  constructor
  all_goals
    intro q
    rcases eq_or_ne q p with rfl | hne
    · rw [update_self]
      assumption
    · rw [update_of_ne hne]

theorem SameCalls.trans {s s' s'' : State} (h : SameCalls s s') (h' : SameCalls s' s'') : SameCalls s s'' :=
  ⟨fun p => (h'.todo p).trans (h.todo p), fun p => (h'.completed p).trans (h.completed p),
    fun p => (h'.pc p).trans (h.pc p)⟩

/-- **Arrivals.** An update or an acknowledgement that arrives leaves the calls of both parties where they are. -/
theorem arrival {s s' : State} {mv : Move} (hs : Ptts.step s mv = some s') (hmv : ∀ p, mv ≠ .act p) :
    SameCalls s s' ∧ rank s' < rank s := by
  cases mv with
  | act p => exact absurd rfl (hmv p)
  | update p =>
      simp only [Ptts.step] at hs
      split at hs
      · cases hs
      · rename_i u us hu
        obtain rfl := Option.some.inj hs
        have hsent : SameCalls s (update s p { s p with updates := us }) := sameCalls_update rfl rfl rfl
        have hrank := rank_update s p { s p with updates := us }
        generalize update s p { s p with updates := us } = s₁ at hsent hrank ⊢
        obtain ⟨remote, events, hl⟩ := (s₁ p.peer).learn_eq u
        have hrank' := rank_update s₁ p.peer ((s₁ p.peer).learn u)
        rw [hl] at hrank' ⊢
        refine ⟨hsent.trans (sameCalls_update rfl rfl rfl), ?_⟩
        simp only [Node.rank, hu, List.length_cons] at hrank hrank'
        omega
  | ack p =>
      simp only [Ptts.step] at hs
      split at hs
      · cases hs
      · rename_i m ms hm
        obtain rfl := Option.some.inj hs
        have hsent : SameCalls s (update s p { s p with acks := ms }) := sameCalls_update rfl rfl rfl
        have hrank := rank_update s p { s p with acks := ms }
        generalize update s p { s p with acks := ms } = s₁ at hsent hrank ⊢
        obtain ⟨inbox, hr⟩ := (s₁ m.port.owner).receive_eq m
        have hrank' := rank_update s₁ m.port.owner ((s₁ m.port.owner).receive m)
        rw [hr] at hrank' ⊢
        refine ⟨hsent.trans (sameCalls_update rfl rfl rfl), ?_⟩
        simp only [Node.rank, hm, List.length_cons] at hrank hrank'
        omega

/-! ## What the two sides of a synchronisation say about each other -/

section

variable {p : Party} {x y : Node}

/-- A call that ends a synchronisation: the sender's comes first. -/
theorem Joint.ending (h : Joint p x y) :
    (x.pc = .acknowledged → ∃ id ts, x.todo = ⟨.send, id⟩ :: ts) ∧ x.pc ≠ .ended ∧ y.pc ≠ .acknowledged ∧
      (y.pc = .ended → x.completed = y.completed + 1) := by
  have hahead {k ts o} {z : Node} (hz : Ahead p k ts z o) :
      z.completed = k ∧ z.pc ≠ .acknowledged ∧ z.pc ≠ .ended := by
    cases hz <;> simp [Node.idle, Node.sending, Node.receiving]
  cases h with
  | leaving k a hx | left k a hx | leftAhead k a hx | ended k a hx | endedAhead k a hx =>
      obtain ⟨hk, hack, hended⟩ := hahead hx
      refine ⟨fun hpc => absurd hpc hack, hended, ?_, fun _ => hk⟩
      intro hy
      cases hy
  | acknowledged k a ts =>
      refine ⟨fun _ => ⟨a, ts, rfl⟩, ?_, ?_, ?_⟩ <;> intro hpc <;> cases hpc
  | _ => refine ⟨?_, ?_, ?_, ?_⟩ <;> intro hpc <;> cases hpc

/-- The party behind can go on, or the end of the signal is on its way to it. -/
theorem Joint.behind (h : Joint p x y) (hk : x.completed ≠ y.completed) :
    (y.act p.peer).isSome ∨ x.updates ≠ [] := by
  cases h with
  | leaving k a hx => exact .inr (List.cons_ne_nil _ _)
  | left k a hx | leftAhead k a hx | ended k a hx | endedAhead k a hx => exact .inl rfl
  | _ => exact absurd rfl hk

end

variable {s : State}

theorem Met.act (h : Met s) {q : Party} {n' : Node} (hact : (s q).act q = some n') : Met (update s q n') := by
  have hs : Ptts.step s (.act q) = some (update s q n') := Option.map_eq_some_iff.mpr ⟨n', hact, rfl⟩
  exact h.step hs

/-- A call that ends a synchronisation is the sender's, or the sender has ended it. -/
theorem Met.ending (h : Met s) (q : Party) (hpc : (s q).pc = .acknowledged ∨ (s q).pc = .ended) :
    (∃ id ts, (s q).todo = ⟨.send, id⟩ :: ts) ∨ (s q.peer).completed = (s q).completed + 1 := by
  obtain ⟨p, hj⟩ := h
  obtain ⟨hack, hnot, hnot', hended⟩ := hj.ending
  rcases Party.eq_or_eq_peer p q with rfl | rfl
  · exact .inl (hack (hpc.resolve_right hnot))
  · rw [Party.peer_peer]
    exact .inr (hended (hpc.resolve_left hnot'))

theorem Met.behind (h : Met s) (q : Party) (hk : (s q).completed < (s q.peer).completed) :
    ((s q).act q).isSome ∨ (s q.peer).updates ≠ [] := by
  obtain ⟨p, hj⟩ := h
  rcases Party.eq_or_eq_peer p q with rfl | rfl
  · rcases hj.completed with heq | ⟨heq, -⟩ <;> omega
  · rw [Party.peer_peer] at hk ⊢
    exact hj.behind (by omega)

end Ptts
end Tipcutils
