import Tipcutils.Ptts.Sync

/-!
# `Ptts.Rendezvous` — the two parties meet at every step

`Joint p x y` lists what the two nodes can look like together, `p` being the sender of the step they are at:
between the steps (`start`), while the signal is put up and seen, while the acknowledgement travels, and while the
signal is taken down. The sender leaves as soon as it is acknowledged, so in that last stretch it may already
have begun its next step (`Ahead`) and have put up a name again, even the same one: the receiver then has
`TIPC_WITHDRAWN` in its queue before the new `TIPC_PUBLISHED`, and drops the latter when it closes the subscription.

Every move leads from one of these configurations to another (`Joint.act_sender`, `Joint.act_receiver`,
`Joint.update_sender`, `Joint.ack_receiver`), and everything the rendezvous promises is read off them
(**`rendezvous`**).
-/

namespace Tipcutils
namespace Ptts

open Function

/-! ## Configurations -/

/-- The name that party `p` puts up in step `k`. -/
def sigName (p : Party) (k : ℕ) (id : ℤ) : Name := ⟨id, p, k⟩

/-- In `sendSyncTIPC`, with the name up. -/
def Node.sending (p : Party) (k : ℕ) (id : ℤ) (ts : List SyncStep) : Node :=
  { Node.idle k (⟨.send, id⟩ :: ts) with pc := .bound, own := [sigName p k id] }

/-- In `recvSyncTIPC`, with the subscription open. -/
def Node.receiving (k : ℕ) (id : ℤ) (ts : List SyncStep) (pc : SyncPc) : Node :=
  { Node.idle k (⟨.recv, id⟩ :: ts) with pc := pc, sub := some id }

/-- How far a party may get with its next call while the other is still finishing the last one; `o` is the name
    that it has put up. -/
inductive Ahead (p : Party) (k : ℕ) : List SyncStep → Node → Option Name → Prop where
  | idle (ts : List SyncStep) : Ahead p k ts (.idle k ts) none
  | bound (b : ℤ) (ts : List SyncStep) :
      Ahead p k (⟨.send, b⟩ :: ts) (.sending p k b ts) (some (sigName p k b))
  | subscribed (b : ℤ) (ts : List SyncStep) :
      Ahead p k (⟨.recv, b⟩ :: ts) (.receiving k b ts .subscribed) none

/-- The updates that put up the name. -/
def putUp (o : Option Name) : List Update := o.toList.map Update.publish

/-- What a subscription to `id` gets to see of a name that is put up again. -/
def seenAgain (id : ℤ) (x : Name) : List Event := if x.sigInstance = id then [⟨true, x.port⟩] else []

/-- What the sender's node `x` and the receiver's node `y` look like together. -/
inductive Joint (p : Party) : Node → Node → Prop where
  | start (k : ℕ) (ts : List SyncStep) : Joint p (.idle k ts) (.idle k (ts.map SyncStep.dual))
  | bound (k : ℕ) (a : ℤ) (ts : List SyncStep) :
      Joint p { Node.sending p k a ts with updates := [.publish (sigName p k a)] }
        (.idle k (⟨.recv, a⟩ :: ts.map SyncStep.dual))
  | watching (k : ℕ) (a : ℤ) (ts : List SyncStep) :
      Joint p (.idle k (⟨.send, a⟩ :: ts)) (.receiving k a (ts.map SyncStep.dual) .subscribed)
  | visible (k : ℕ) (a : ℤ) (ts : List SyncStep) :
      Joint p (.sending p k a ts)
        { Node.idle k (⟨.recv, a⟩ :: ts.map SyncStep.dual) with remote := [sigName p k a] }
  | crossing (k : ℕ) (a : ℤ) (ts : List SyncStep) :
      Joint p { Node.sending p k a ts with updates := [.publish (sigName p k a)] }
        (.receiving k a (ts.map SyncStep.dual) .subscribed)
  | signalled (k : ℕ) (a : ℤ) (ts : List SyncStep) :
      Joint p (.sending p k a ts)
        { Node.receiving k a (ts.map SyncStep.dual) .subscribed with
          remote := [sigName p k a], events := [⟨true, p, k⟩] }
  | detected (k : ℕ) (a : ℤ) (ts : List SyncStep) :
      Joint p (.sending p k a ts)
        { Node.receiving k a (ts.map SyncStep.dual) .detected with remote := [sigName p k a] }
  | acking (k : ℕ) (a : ℤ) (ts : List SyncStep) :
      Joint p (.sending p k a ts)
        { Node.receiving k a (ts.map SyncStep.dual) .ackSent with
          remote := [sigName p k a], acks := [⟨⟨p, k⟩, 1, k⟩] }
  | ackArrived (k : ℕ) (a : ℤ) (ts : List SyncStep) :
      Joint p { Node.sending p k a ts with inbox := [⟨⟨p, k⟩, 1, k⟩] }
        { Node.receiving k a (ts.map SyncStep.dual) .ackSent with remote := [sigName p k a] }
  | acknowledged (k : ℕ) (a : ℤ) (ts : List SyncStep) :
      Joint p { Node.sending p k a ts with pc := .acknowledged }
        { Node.receiving k a (ts.map SyncStep.dual) .ackSent with remote := [sigName p k a] }
  | leaving (k : ℕ) (a : ℤ) {ts : List SyncStep} {x : Node} {o : Option Name} (hx : Ahead p (k + 1) ts x o) :
      Joint p { x with updates := .withdraw (sigName p k a) :: putUp o }
        { Node.receiving k a (ts.map SyncStep.dual) .ackSent with remote := [sigName p k a] }
  | left (k : ℕ) (a : ℤ) {ts : List SyncStep} {x : Node} {o : Option Name} (hx : Ahead p (k + 1) ts x o) :
      Joint p { x with updates := putUp o }
        { Node.receiving k a (ts.map SyncStep.dual) .ackSent with events := [⟨false, p, k⟩] }
  | leftAhead (k : ℕ) (a : ℤ) {ts : List SyncStep} {x : Node} {n : Name} (hx : Ahead p (k + 1) ts x (some n)) :
      Joint p x
        { Node.receiving k a (ts.map SyncStep.dual) .ackSent with
          remote := [n], events := ⟨false, p, k⟩ :: seenAgain a n }
  | ended (k : ℕ) (a : ℤ) {ts : List SyncStep} {x : Node} {o : Option Name} (hx : Ahead p (k + 1) ts x o) :
      Joint p { x with updates := putUp o } (.receiving k a (ts.map SyncStep.dual) .ended)
  | endedAhead (k : ℕ) (a : ℤ) {ts : List SyncStep} {x : Node} {n : Name} (hx : Ahead p (k + 1) ts x (some n)) :
      Joint p x
        { Node.receiving k a (ts.map SyncStep.dual) .ended with remote := [n], events := seenAgain a n }

/-! ## Moves between configurations -/

variable {p : Party} {x x' y y' : Node}

theorem Joint.of_eq (h : Joint p x y) (hx : x' = x) (hy : y' = y) : Joint p x' y' := by
  rw [hx, hy]
  exact h

/-- Two duals are no dual. -/
theorem map_dual_map_dual (ts : List SyncStep) : (ts.map SyncStep.dual).map SyncStep.dual = ts := by
  rw [List.map_map, SyncStep.dual_comp_dual, List.map_id]

/-- A party that is ahead can only begin its next call. -/
theorem Ahead.act {k : ℕ} {ts : List SyncStep} {o : Option Name} {us : List Update} (h : Ahead p k ts x o)
    (hs : ({ x with updates := us } : Node).act p = some x') :
    o = none ∧ ∃ z o', Ahead p k ts z o' ∧ x' = { z with updates := us ++ putUp o' } := by
  cases h with
  | idle =>
      refine ⟨rfl, ?_⟩
      cases ts with
      | nil => cases hs
      | cons t ts =>
          obtain ⟨dir, b⟩ := t
          cases dir with
          | send =>
              cases hs
              exact ⟨_, _, .bound b ts, rfl⟩
          | recv =>
              cases hs
              exact ⟨_, _, .subscribed b ts, by rw [show putUp none = [] from rfl, List.append_nil]; rfl⟩
  | bound => cases hs
  | subscribed => cases hs

/-- Closing the socket takes the name down and leaves nothing else behind. -/
theorem unbind_sending (k : ℕ) (a : ℤ) (ts : List SyncStep) :
    (({ Node.sending p k a ts with pc := .acknowledged } : Node).unbind ⟨a, p, k⟩).next ts =
      { Node.idle (k + 1) ts with updates := [.withdraw (sigName p k a)] } := by
  simp [Node.unbind, Node.report, Node.next, Node.sending, Node.idle, sigName]

/-- A subscription is told of a name that appears. -/
theorem learn_publish_receiving (k : ℕ) (a : ℤ) (ts : List SyncStep) (pc : SyncPc) (es : List Event) (n : Name) :
    ({ Node.receiving k a ts pc with events := es } : Node).learn (.publish n) =
      { Node.receiving k a ts pc with remote := [n], events := es ++ seenAgain a n } := by
  by_cases hn : n.sigInstance = a
  · simp [Node.learn, Node.report, Node.find, Node.receiving, Node.idle, seenAgain, hn]
  · simp [Node.learn, Node.report, Node.find, Node.receiving, Node.idle, seenAgain, hn, Ne.symm hn]

/-- A subscription is told of the end of its only name. -/
theorem learn_withdraw_receiving (k : ℕ) (a : ℤ) (ts : List SyncStep) (pc : SyncPc) :
    ({ Node.receiving k a ts pc with remote := [sigName p k a] } : Node).learn (.withdraw (sigName p k a)) =
      { Node.receiving k a ts pc with events := [⟨false, p, k⟩] } := by
  simp [Node.learn, Node.report, Node.find, Node.receiving, Node.idle, sigName]

/-- A name that is already there is reported at once. -/
theorem act_visible (q : Party) (k : ℕ) (a : ℤ) (ts : List SyncStep) :
    ({ Node.idle k (⟨.recv, a⟩ :: ts) with remote := [sigName p k a] } : Node).act q =
      some { Node.receiving k a ts .subscribed with remote := [sigName p k a], events := [⟨true, p, k⟩] } := by
  simp [Node.act, Node.find, Node.receiving, Node.idle, sigName]

/-- The acknowledgement is addressed to the port that put up the name. -/
theorem act_detected (q : Party) (k : ℕ) (a : ℤ) (ts : List SyncStep) :
    ({ Node.receiving k a ts .detected with remote := [sigName p k a] } : Node).act q =
      some { Node.receiving k a ts .ackSent with remote := [sigName p k a], acks := [⟨⟨p, k⟩, 1, k⟩] } := by
  simp [Node.act, Node.find, Node.receiving, Node.idle, sigName]

/-- The acknowledgement finds its socket. -/
theorem receive_sending (k : ℕ) (a : ℤ) (ts : List SyncStep) :
    (Node.sending p k a ts).receive ⟨⟨p, k⟩, 1, k⟩ =
      { Node.sending p k a ts with inbox := [⟨⟨p, k⟩, 1, k⟩] } := by
  simp [Node.receive, Node.sending, Node.idle, sigName]

/-- The sender moves. -/
theorem Joint.act_sender (h : Joint p x y) (hs : x.act p = some x') : Joint p x' y ∨ Joint p.peer y x' := by
  cases h with
  | start k ts =>
      cases ts with
      | nil => cases hs
      | cons t ts =>
          obtain ⟨dir, a⟩ := t
          cases dir with
          | send =>
              cases hs
              exact .inl (.bound k a ts)
          | recv =>
              -- the roles change: `p` is the receiver of this step
              cases hs
              have := Joint.watching (p := p.peer) k a (ts.map SyncStep.dual)
              rw [map_dual_map_dual] at this
              exact .inr this
  | watching k a ts =>
      cases hs
      exact .inl (.crossing k a ts)
  | ackArrived k a ts =>
      cases hs
      exact .inl (.acknowledged k a ts)
  | acknowledged k a ts =>
      obtain rfl := (Option.some.inj hs).symm
      exact .inl ((Joint.leaving k a (.idle ts)).of_eq (unbind_sending k a ts) rfl)
  | leaving k a hx =>
      obtain ⟨rfl, z, o', hz, rfl⟩ := hx.act hs
      exact .inl (.leaving k a hz)
  | left k a hx =>
      obtain ⟨rfl, z, o', hz, rfl⟩ := hx.act hs
      exact .inl (.left k a hz)
  | ended k a hx =>
      obtain ⟨rfl, z, o', hz, rfl⟩ := hx.act hs
      exact .inl (.ended k a hz)
  | leftAhead k a hx => exact absurd (hx.act hs).1 (by simp)
  | endedAhead k a hx => exact absurd (hx.act hs).1 (by simp)
  -- in the other configurations the sender waits for its acknowledgement
  | _ => cases hs

/-- The receiver moves. -/
theorem Joint.act_receiver (h : Joint p x y) (hs : y.act p.peer = some y') : Joint p x y' ∨ Joint p.peer y' x := by
  cases h with
  | start k ts =>
      cases ts with
      | nil => cases hs
      | cons t ts =>
          obtain ⟨dir, a⟩ := t
          cases dir with
          | send =>
              cases hs
              exact .inl (.watching k a ts)
          | recv =>
              cases hs
              have := Joint.bound (p := p.peer) k a (ts.map SyncStep.dual)
              rw [map_dual_map_dual] at this
              exact .inr this
  | bound k a ts =>
      cases hs
      exact .inl (.crossing k a ts)
  | visible k a ts =>
      obtain rfl := Option.some.inj ((act_visible _ k a _).symm.trans hs)
      exact .inl (.signalled k a ts)
  | signalled k a ts =>
      cases hs
      exact .inl (.detected k a ts)
  | detected k a ts =>
      obtain rfl := Option.some.inj ((act_detected _ k a _).symm.trans hs)
      exact .inl (.acking k a ts)
  | left k a hx =>
      cases hs
      exact .inl (.ended k a hx)
  | leftAhead k a hx =>
      cases hs
      exact .inl (.endedAhead k a hx)
  | ended k a hx =>
      -- closing the subscription brings the receiver to wherever the sender has got
      cases hs
      cases hx with
      | idle => exact .inl (.start (k + 1) _)
      | bound b ts => exact .inl (.bound (k + 1) b ts)
      | subscribed b ts =>
          have := Joint.watching (p := p.peer) (k + 1) b (ts.map SyncStep.dual)
          rw [map_dual_map_dual] at this
          exact .inr this
  | endedAhead k a hx =>
      cases hs
      cases hx
      exact .inl (.visible (k + 1) _ _)
  -- in the other configurations the receiver waits for an event
  | _ => cases hs

/-- A name update of the sender's node arrives. -/
theorem Joint.update_sender (h : Joint p x y) {u : Update} {us : List Update} (hu : x.updates = u :: us) :
    Joint p { x with updates := us } (y.learn u) := by
  cases h with
  | bound k a ts =>
      cases hu
      exact .visible k a ts
  | crossing k a ts =>
      cases hu
      refine (Joint.signalled k a ts).of_eq rfl ((learn_publish_receiving k a _ .subscribed [] _).trans ?_)
      simp [seenAgain, sigName]
  | leaving k a hx =>
      cases hu
      exact (Joint.left k a hx).of_eq rfl (learn_withdraw_receiving k a _ .ackSent)
  | left k a hx =>
      cases hx with
      | bound b ts =>
          cases hu
          exact (Joint.leftAhead k a (.bound b ts)).of_eq rfl (learn_publish_receiving k a _ .ackSent [_] _)
      | idle => cases hu
      | subscribed => cases hu
  | leftAhead k a hx =>
      cases hx
      cases hu
  | ended k a hx =>
      cases hx with
      | bound b ts =>
          cases hu
          exact (Joint.endedAhead k a (.bound b ts)).of_eq rfl (learn_publish_receiving k a _ .ended [] _)
      | idle => cases hu
      | subscribed => cases hu
  | endedAhead k a hx =>
      cases hx
      cases hu
  -- otherwise nothing is under way
  | _ => cases hu

/-- The receiver has put up no name. -/
theorem Joint.receiver_updates (h : Joint p x y) : y.updates = [] := by
  cases h <;> rfl

/-- The sender acknowledges nothing. -/
theorem Joint.sender_acks (h : Joint p x y) : x.acks = [] := by
  have hahead {k ts o} {z : Node} (hz : Ahead p k ts z o) : z.acks = [] := by cases hz <;> rfl
  cases h with
  | leaving k a hx | left k a hx | leftAhead k a hx | ended k a hx | endedAhead k a hx =>
      have hz := hahead hx
      exact hz
  | _ => rfl

/-- The acknowledgement arrives at the socket that put up the name. -/
theorem Joint.ack_receiver (h : Joint p x y) {m : Ack} {ms : List Ack} (hm : y.acks = m :: ms) :
    m.port.owner = p ∧ Joint p (x.receive m) { y with acks := ms } := by
  cases h with
  | acking k a ts =>
      cases hm
      exact ⟨rfl, (Joint.ackArrived k a ts).of_eq (receive_sending k a ts) rfl⟩
  | _ => cases hm

/-! ## Every reachable state -/

/-- The two nodes are in one of the configurations. -/
def Met (s : State) : Prop := ∃ p, Joint p (s p) (s p.peer)

theorem met_start (steps : List SyncStep) : Met (start steps) := ⟨.client, .start 0 steps⟩

/-- **The step lemma.** Every move leads from a configuration to a configuration. -/
theorem Met.step {s s' : State} {mv : Move} (h : Met s) (hs : Ptts.step s mv = some s') : Met s' := by
  obtain ⟨p, hj⟩ := h
  have hne : p.peer ≠ p := p.peer_ne
  cases mv with
  | act q =>
      obtain ⟨z, hz, rfl⟩ := Option.map_eq_some_iff.mp hs
      rcases Party.eq_or_eq_peer p q with rfl | rfl
      · rcases hj.act_sender hz with h' | h'
        · refine ⟨q, ?_⟩
          rwa [update_self, update_of_ne hne]
        · refine ⟨q.peer, ?_⟩
          rwa [Party.peer_peer, update_self, update_of_ne hne]
      · rcases hj.act_receiver hz with h' | h'
        · refine ⟨p, ?_⟩
          rwa [update_self, update_of_ne hne.symm]
        · refine ⟨p.peer, ?_⟩
          rwa [Party.peer_peer, update_self, update_of_ne hne.symm]
  | update q =>
      simp only [Ptts.step] at hs
      split at hs
      · cases hs
      · rename_i u us hu
        obtain rfl := Option.some.inj hs
        rcases Party.eq_or_eq_peer p q with rfl | rfl
        · refine ⟨q, ?_⟩
          have := hj.update_sender hu
          simpa [hne, hne.symm] using this
        · rw [hj.receiver_updates] at hu
          cases hu
  | ack q =>
      simp only [Ptts.step] at hs
      split at hs
      · cases hs
      · rename_i m ms hm
        obtain rfl := Option.some.inj hs
        rcases Party.eq_or_eq_peer p q with rfl | rfl
        · rw [hj.sender_acks] at hm
          cases hm
        · obtain ⟨howner, h'⟩ := hj.ack_receiver hm
          refine ⟨p, ?_⟩
          simpa [howner, hne, hne.symm] using h'

theorem met {steps : List SyncStep} {s : State} (h : Lts.Reach Ptts.step (start steps) s) : Met s :=
  h.inv (met_start steps) fun _ _ _ hm hs => hm.step hs

/-! ## What a configuration says -/

/-- The sender of a step is at most one step ahead, and then the receiver has only the end of the signal to see. -/
theorem Joint.completed (h : Joint p x y) :
    x.completed = y.completed ∨ x.completed = y.completed + 1 ∧ (y.pc = .ackSent ∨ y.pc = .ended) := by
  have hahead {k ts o} {z : Node} (hz : Ahead p k ts z o) : z.completed = k := by cases hz <;> rfl
  cases h with
  | leaving k a hx | left k a hx | leftAhead k a hx =>
      have hz := hahead hx
      exact .inr ⟨hz, .inl rfl⟩
  | ended k a hx | endedAhead k a hx =>
      have hz := hahead hx
      exact .inr ⟨hz, .inr rfl⟩
  | _ => exact .inl rfl

/-- The sender has no events, and the next event that the receiver reads is about its own step. -/
theorem Joint.events (h : Joint p x y) :
    x.events = [] ∧
      ∀ e es, y.pc = .subscribed ∨ y.pc = .ackSent → y.events = e :: es → e.port = ⟨p, y.completed⟩ := by
  have hahead {k ts o} {z : Node} (hz : Ahead p k ts z o) : z.events = [] := by cases hz <;> rfl
  cases h with
  | signalled k a ts =>
      refine ⟨rfl, ?_⟩
      intro e es _ he
      cases he
      rfl
  | left k a hx | leftAhead k a hx =>
      have hz := hahead hx
      refine ⟨hz, ?_⟩
      intro e es _ he
      cases he
      rfl
  | leaving k a hx | ended k a hx =>
      have hz := hahead hx
      exact ⟨hz, fun e es _ he => nomatch he⟩
  | endedAhead k a hx =>
      have hz := hahead hx
      refine ⟨hz, ?_⟩
      intro e es hpc _
      rcases hpc with hpc | hpc <;> cases hpc
  | _ => exact ⟨rfl, fun e es _ he => nomatch he⟩

/-- The receiver gets no message, and the acknowledgement that the sender reads was sent in its own step. -/
theorem Joint.inbox (h : Joint p x y) :
    y.inbox = [] ∧ ∀ m ms, x.inbox = m :: ms → m.step = x.completed ∧ m.port = ⟨p, x.completed⟩ := by
  have hahead {k ts o} {z : Node} (hz : Ahead p k ts z o) : z.inbox = [] := by cases hz <;> rfl
  cases h with
  | ackArrived k a ts =>
      refine ⟨rfl, ?_⟩
      intro m ms hm
      cases hm
      exact ⟨rfl, rfl⟩
  | leaving k a hx | left k a hx | leftAhead k a hx | ended k a hx | endedAhead k a hx =>
      have hz := hahead hx
      refine ⟨rfl, ?_⟩
      intro m ms hm
      exact absurd (hz.symm.trans hm) (by simp)
  | _ => exact ⟨rfl, fun m ms hm => nomatch hm⟩

theorem Joint.not_failed (h : Joint p x y) (e : SyncErr) : x.pc ≠ .failed e ∧ y.pc ≠ .failed e := by
  have hahead {k ts o} {z : Node} (hz : Ahead p k ts z o) : z.pc ≠ .failed e := by cases hz <;> simp [Node.idle,
    Node.sending, Node.receiving]
  cases h with
  | leaving k a hx | left k a hx | leftAhead k a hx | ended k a hx | endedAhead k a hx =>
      have hz := hahead hx
      exact ⟨hz, fun hy => nomatch hy⟩
  | _ => exact ⟨fun hx => (nomatch hx), fun hy => (nomatch hy)⟩

/-- Somebody can move, or both are done. -/
theorem Joint.live (h : Joint p x y) :
    (x.act p).isSome ∨ (y.act p.peer).isSome ∨ x.updates ≠ [] ∨ y.acks ≠ [] ∨ x.todo = [] ∧ y.todo = [] := by
  cases h with
  | start k ts =>
      cases ts with
      | nil => exact .inr (.inr (.inr (.inr ⟨rfl, rfl⟩)))
      | cons t ts =>
          obtain ⟨dir, a⟩ := t
          cases dir <;> exact .inl rfl
  | bound k a ts => exact .inr (.inl rfl)
  | watching k a ts => exact .inl rfl
  | visible k a ts => exact .inr (.inl rfl)
  | crossing k a ts => exact .inr (.inr (.inl (List.cons_ne_nil _ _)))
  | signalled k a ts => exact .inr (.inl rfl)
  | detected k a ts => exact .inr (.inl (by rw [act_detected]; rfl))
  | acking k a ts => exact .inr (.inr (.inr (.inl (List.cons_ne_nil _ _))))
  | ackArrived k a ts => exact .inl rfl
  | acknowledged k a ts => exact .inl rfl
  | leaving k a hx => exact .inr (.inr (.inl (List.cons_ne_nil _ _)))
  | left k a hx => exact .inr (.inl rfl)
  | leftAhead k a hx => exact .inr (.inl rfl)
  | ended k a hx => exact .inr (.inl rfl)
  | endedAhead k a hx => exact .inr (.inl rfl)

/-! ## The calls that are made are the script's -/

/-- The party has completed a first part of `ts` and has the rest to do. -/
def Node.OnScript (ts : List SyncStep) (n : Node) : Prop := n.completed ≤ ts.length ∧ n.todo = ts.drop n.completed

theorem Node.OnScript.congr {ts : List SyncStep} {n n' : Node} (h : n.OnScript ts) (htodo : n'.todo = n.todo)
    (hcompleted : n'.completed = n.completed) : n'.OnScript ts := by
  unfold Node.OnScript
  rw [htodo, hcompleted]
  exact h

theorem Node.OnScript.next {ts : List SyncStep} {n n' : Node} {t : SyncStep} (h : n.OnScript ts)
    (htodo : n.todo = t :: n'.todo) (hcompleted : n'.completed = n.completed + 1) : n'.OnScript ts := by
  obtain ⟨hle, hdrop⟩ := h
  have hlt : n.completed < ts.length := by
    rcases Nat.lt_or_eq_of_le hle with hlt | heq
    · exact hlt
    · rw [hdrop, heq, List.drop_length] at htodo
      cases htodo
  refine ⟨by omega, ?_⟩
  rw [hcompleted, ← List.tail_drop, ← hdrop, htodo]
  rfl

theorem Node.report_script (n : Node) (b : Bool) (x : Name) :
    (n.report b x).todo = n.todo ∧ (n.report b x).completed = n.completed := by
  unfold Node.report
  split <;> exact ⟨rfl, rfl⟩

theorem Node.learn_script (n : Node) (u : Update) :
    (n.learn u).todo = n.todo ∧ (n.learn u).completed = n.completed := by
  cases u with
  | publish x => exact n.report_script true x
  | withdraw x => exact Node.report_script _ false x

theorem Node.receive_script (n : Node) (m : Ack) :
    (n.receive m).todo = n.todo ∧ (n.receive m).completed = n.completed := by
  unfold Node.receive
  split <;> exact ⟨rfl, rfl⟩

/-- A call of a party is made to its end, and then the next one begins. -/
theorem Node.OnScript.act {ts : List SyncStep} {n n' : Node} {q : Party} (h : n.OnScript ts)
    (hs : n.act q = some n') : n'.OnScript ts := by
  unfold Node.act at hs
  split at hs
  · rename_i id _ _ _
    obtain rfl := Option.some.inj hs
    have hr := n.report_script true ⟨id, q, n.completed⟩
    exact h.congr hr.1 hr.2
  · split at hs
    · cases hs
    · obtain rfl := Option.some.inj hs
      exact h.congr rfl rfl
  · rename_i id rest hpc htodo
    obtain rfl := Option.some.inj hs
    have hr := Node.report_script { n with own := n.own.erase ⟨id, q, n.completed⟩ } false ⟨id, q, n.completed⟩
    exact h.next htodo (congrArg (· + 1) hr.2)
  · obtain rfl := Option.some.inj hs
    exact h.congr rfl rfl
  · split at hs
    · cases hs
    · obtain rfl := Option.some.inj hs
      exact h.congr rfl rfl
  · split at hs <;> obtain rfl := Option.some.inj hs <;> exact h.congr rfl rfl
  · split at hs
    · cases hs
    · obtain rfl := Option.some.inj hs
      exact h.congr rfl rfl
  · rename_i hpc htodo
    obtain rfl := Option.some.inj hs
    exact h.next htodo rfl
  · cases hs

theorem onScript {steps : List SyncStep} {s : State} (h : Lts.Reach Ptts.step (start steps) s) (q : Party) :
    (s q).OnScript (script steps q) := by
  refine h.inv (I := fun s => ∀ q, (s q).OnScript (script steps q)) (fun q => ⟨Nat.zero_le _, rfl⟩) ?_ q
  intro s mv s' hon hs
  cases mv with
  | act r =>
      obtain ⟨z, hz, rfl⟩ := Option.map_eq_some_iff.mp hs
      exact (forall_update_iff s fun q n => n.OnScript (script steps q)).mpr ⟨(hon r).act hz, fun q _ => hon q⟩
  | update r =>
      simp only [Ptts.step] at hs
      split at hs
      · cases hs
      · rename_i u us hu
        obtain rfl := Option.some.inj hs
        have hpop : ∀ q, (update s r { s r with updates := us } q).OnScript (script steps q) :=
          (forall_update_iff s fun q n => n.OnScript (script steps q)).mpr ⟨hon r, fun q _ => hon q⟩
        refine (forall_update_iff _ fun q (n : Node) => n.OnScript (script steps q)).mpr ⟨?_, fun q _ => hpop q⟩
        exact (hpop _).congr (Node.learn_script _ u).1 (Node.learn_script _ u).2
  | ack r =>
      simp only [Ptts.step] at hs
      split at hs
      · cases hs
      · rename_i m ms hm
        obtain rfl := Option.some.inj hs
        have hpop : ∀ q, (update s r { s r with acks := ms } q).OnScript (script steps q) :=
          (forall_update_iff s fun q n => n.OnScript (script steps q)).mpr ⟨hon r, fun q _ => hon q⟩
        refine (forall_update_iff _ fun q (n : Node) => n.OnScript (script steps q)).mpr ⟨?_, fun q _ => hpop q⟩
        exact (hpop _).congr (Node.receive_script _ m).1 (Node.receive_script _ m).2

/-! ## The rendezvous -/

/-- What holds of the two parties whatever the interleaving. -/
structure Rendezvous (steps : List SyncStep) (s : State) : Prop where
  /-- every party makes the calls of its script in order -/
  onScript : ∀ p, (s p).todo = (script steps p).drop (s p).completed
  /-- the numbers of completed calls differ by at most one -/
  close : ∀ p, (s p).completed ≤ (s p.peer).completed + 1
  /-- a party completes a call only when the other has seen its signal and acknowledged it in the same step -/
  together : ∀ p, (s p.peer).completed < (s p).completed →
    (s p.peer).pc = .ackSent ∨ (s p.peer).pc = .ended
  /-- the next event that a party reads is about the signal of the same step of the other -/
  signals : ∀ p e es, (s p).pc = .subscribed ∨ (s p).pc = .ackSent → (s p).events = e :: es →
    e.port = ⟨p.peer, (s p).completed⟩
  /-- the next acknowledgement that a party reads was sent in the same step of the other, to this step's socket -/
  acks : ∀ p m ms, (s p).inbox = m :: ms → m.step = (s p).completed ∧ m.port = ⟨p, (s p).completed⟩
  noErr : ∀ p e, (s p).pc ≠ .failed e
  live : (∃ mv, (Ptts.step s mv).isSome = true) ∨ ∀ p, (s p).todo = [] ∧ (s p).completed = steps.length

theorem script_length (steps : List SyncStep) (p : Party) : (script steps p).length = steps.length := by
  cases p
  · rfl
  · exact List.length_map _

/-- **Rendezvous.** For every script and every interleaving. -/
theorem rendezvous {steps : List SyncStep} {s : State} (h : Lts.Reach Ptts.step (start steps) s) :
    Rendezvous steps s := by
  obtain ⟨p, hj⟩ := met h
  have hscript := onScript h
  -- what holds of `p` and of its peer holds of both parties
  have hboth {P : Party → Prop} (h1 : P p) (h2 : P p.peer) (q : Party) : P q := by
    rcases Party.eq_or_eq_peer p q with rfl | rfl
    · exact h1
    · exact h2
  refine ⟨fun q => (hscript q).2, hboth ?_ ?_, hboth ?_ ?_, hboth ?_ ?_, hboth ?_ ?_, hboth ?_ ?_, ?_⟩
  · rcases hj.completed with heq | ⟨heq, -⟩ <;> omega
  · rw [Party.peer_peer]
    rcases hj.completed with heq | ⟨heq, -⟩ <;> omega
  · intro hlt
    rcases hj.completed with heq | ⟨-, hpc⟩
    · omega
    · exact hpc
  · rw [Party.peer_peer]
    intro hlt
    rcases hj.completed with heq | ⟨heq, -⟩ <;> omega
  · intro e es _ he
    rw [hj.events.1] at he
    cases he
  · intro e es hpc he
    rw [Party.peer_peer]
    exact hj.events.2 e es hpc he
  · exact hj.inbox.2
  · intro m ms hm
    rw [hj.inbox.1] at hm
    cases hm
  · exact fun e => (hj.not_failed e).1
  · exact fun e => (hj.not_failed e).2
  · rcases hj.live with hx | hy | hu | ha | ⟨hx, hy⟩
    · exact .inl ⟨.act p, by simpa [Ptts.step] using hx⟩
    · exact .inl ⟨.act p.peer, by simpa [Ptts.step] using hy⟩
    · obtain ⟨u, us, hu⟩ := List.exists_cons_of_ne_nil hu
      exact .inl ⟨.update p, by simp [Ptts.step, hu]⟩
    · obtain ⟨m, ms, hm⟩ := List.exists_cons_of_ne_nil ha
      exact .inl ⟨.ack p.peer, by simp [Ptts.step, hm]⟩
    · have hdone (q : Party) (hq : (s q).todo = []) : (s q).completed = steps.length := by
        have hle := (hscript q).1
        have hdrop := List.drop_eq_nil_iff.mp ((hscript q).2.symm.trans hq)
        rw [script_length] at hle hdrop
        exact Nat.le_antisymm hle hdrop
      exact .inr (hboth ⟨hx, hdone _ hx⟩ ⟨hy, hdone _ hy⟩)

/-- The client signals twice with the same number, and has put up its second signal before the server has seen the
    end of the first. -/
def sameTwice : List Move :=
  [.act .client, .update .client, .act .server, .act .server, .act .server, .ack .server, .act .client,
    .act .client, .act .client, .update .client, .update .client]

theorem rendezvous_sameTwice :
    Rendezvous [⟨.send, 1⟩, ⟨.send, 1⟩]
      (Lts.final Ptts.step (start [⟨.send, 1⟩, ⟨.send, 1⟩]) sameTwice (by decide)) :=
  rendezvous (Lts.reach_final _)

end Ptts
end Tipcutils
