import Tipcutils.Lib.Duplex
import Tipcutils.Ptts.Dual
import Tipcutils.Ptts.SyncCalls
import Tipcutils.Ptts.Vector

/-!
# `Ptts.Suite` — the two programs side by side

`tipcTC` and `tipcTS` run side by side: every synchronisation is the sequence of socket calls of `Ptts.Sync`, with
the name tables of both nodes, and between the synchronisations a party sends test messages and test numbers that wait
on the socket of the other, at most `cap` of them at a time, and takes those that wait on its own.

The two programs are dual, so one of the parties leads by what the other has still to take (`InStep`), and a
synchronisation ends on the side that receives it only when it has ended on the other. This `Invariant` is kept by every
move (`Invariant.moved`), with it the suite does not get stuck (**`Suite.live`**), and every move lowers a rank
(**`Suite.step_rank`**).

Not modelled: the sockets of the test messages, which lose nothing and keep the order; the calls of a test that
exchange neither a synchronisation nor a message of `sendSocketTIPC`, `sendtoSocketTIPC` or `sendTIPCTest`, and that may fail
or wait for ever between two synchronisations (all those of the tests 9 to 15).
-/

namespace Tipcutils
namespace Ptts

open Function
open Duplex (Act Lead)

/-! ## What passes between the two programs -/

/-- What one party offers to the other: a signal, a test message, a test number. -/
inductive Offer where
  | signal (sigInstance : ℤ)
  | message (size : ℕ)
  | testNumber (n : ℤ)
deriving DecidableEq

/-- `TS_INVALID_TEST`. -/
def tsInvalidTest : ℤ := -2

/-- The message that is sent; a signal is none. -/
def Offer.octets : Offer → Option Octets
  | .signal _ => none
  | .message size => some (makeArray size 0 255)
  | .testNumber n => some (be32 (Int32.ofInt n).toUInt32)

/-- The test number that `tipcTestServer` makes of a message. -/
def readTest (msg : Octets) : ℤ :=
  if (msg.take 4).length > 0 then (ofBe32 (msg.take 4)).toInt32.toInt else tsInvalidTest

/-- The message is what the receiver of the offer needs: neither `recv` nor `checkArray` finds an error, or it is the
    test number of the server's script. -/
def Offer.Taken : Offer → Octets → Prop
  | .signal _, _ => False
  | .message size, msg => 0 < (msg.take size).length ∧ checkArray (msg.take size) (msg.take size).length = 0
  | .testNumber n, msg => readTest msg = n

instance (x : Offer) (msg : Octets) : Decidable (x.Taken msg) :=
  match x with
  | .signal _ => inferInstanceAs (Decidable False)
  | .message _ => inferInstanceAs (Decidable (_ ∧ _))
  | .testNumber _ => inferInstanceAs (Decidable (_ = _))

/-- A call of `sendSyncTIPC` or `recvSyncTIPC`. -/
def SyncStep.offer : SyncStep → Act Offer
  | ⟨.send, id⟩ => .offer (.signal id)
  | ⟨.recv, id⟩ => .take (.signal id)

/-- The single calls of an act: `sendSocketTIPC` and `recvSocketTIPC` are loops. -/
def TestAct.calls : TestAct → List (Act Offer)
  | .sync s => [s.offer]
  | .send numTimes msgSize =>
    if numTimes = 0 ∨ msgSize = 0 then [] else List.replicate numTimes.toNat (.offer (.message msgSize.toNat))
  | .recv numTimes maxSize =>
    if numTimes = 0 ∨ maxSize = 0 then [] else List.replicate numTimes.toNat (.take (.message maxSize.toNat))

/-- The client passes a test number, the server takes it. -/
def ProgAct.calls (p : Party) : ProgAct → List (Act Offer)
  | .test a => a.calls
  | .tell n =>
    match p with
    | .client => [.offer (.testNumber n)]
    | .server => [.take (.testNumber n)]

/-- The calls of a program. -/
def calls (p : Party) (acts : List ProgAct) : List (Act Offer) := acts.flatMap (ProgAct.calls p)

/-- The synchronisation that a call is, if it is one. -/
def asSync : Act Offer → Option SyncStep
  | .offer (.signal id) => some ⟨.send, id⟩
  | .take (.signal id) => some ⟨.recv, id⟩
  | _ => none

/-- The synchronisations among the calls. -/
def syncCalls (prog : List (Act Offer)) : List SyncStep := prog.filterMap asSync

/-! ## The two programs together -/

/-- Both programs with their nodes. -/
structure Suite where
  nodes : State
  /-- the calls still to make, the current one first -/
  prog : Party → List (Act Offer)
  /-- the messages that wait on a party's socket -/
  queue : Party → List Octets
  /-- the messages that a party has found wrong -/
  wrong : Party → ℕ

/-- A move of the synchronisation that is under way, or a call that sends or receives a message. -/
inductive SuiteMove where
  | sync (mv : Move)
  | data (p : Party)

namespace Suite

variable (s : Suite)

/-- The current call is a synchronisation. -/
def AtSync (p : Party) : Prop := ((s.prog p).head?.bind asSync).isSome

instance (p : Party) : Decidable (s.AtSync p) := inferInstanceAs (Decidable (_ = true))

/-- A socket call inside of a synchronisation; with the last one the program goes on. -/
def syncCall (p : Party) (nodes' : State) : Suite :=
  { s with
    nodes := nodes'
    prog := update s.prog p
      (if (nodes' p).completed = (s.nodes p).completed then s.prog p else (s.prog p).tail) }

/-- Send a message: it blocks while the socket of the other party is full. -/
def send (cap : ℕ) (p : Party) (msg : Octets) (rest : List (Act Offer)) : Option Suite :=
  if (s.queue p.peer).length < cap then
    some { s with prog := update s.prog p rest, queue := update s.queue p.peer (s.queue p.peer ++ [msg]) }
  else none

/-- Receive a message: it blocks while there is none. -/
def recv (p : Party) (x : Offer) (rest : List (Act Offer)) : Option Suite :=
  match s.queue p with
  | [] => none
  | msg :: msgs =>
    some { s with
      prog := update s.prog p rest
      queue := update s.queue p msgs
      wrong := update s.wrong p (if x.Taken msg then s.wrong p else s.wrong p + 1) }

end Suite

/-- One move of the two programs. -/
def Suite.step (cap : ℕ) (s : Suite) : SuiteMove → Option Suite
  | .sync (.act p) =>
    if s.AtSync p then (Ptts.step s.nodes (.act p)).map (s.syncCall p) else none
  | .sync mv => (Ptts.step s.nodes mv).map fun nodes' => { s with nodes := nodes' }
  | .data p =>
    match s.prog p with
    | [] => none
    | .offer x :: rest => x.octets.bind fun msg => s.send cap p msg rest
    | .take x :: rest => if x.octets.isSome then s.recv p x rest else none

/-- Before the first call. -/
def Suite.start (prog : Party → List (Act Offer)) : Suite where
  nodes := fun p => .idle 0 (syncCalls (prog p))
  prog := prog
  queue := fun _ => []
  wrong := fun _ => 0

/-! ## Moves -/

namespace Suite

variable {cap : ℕ} {s s' : Suite} {mv : SuiteMove}

/-- What a move can be. -/
inductive Moved (cap : ℕ) (s : Suite) : Suite → Prop where
  | call (p : Party) {n' : Node} (hat : s.AtSync p) (hact : (s.nodes p).act p = some n') :
      Moved cap s (s.syncCall p (update s.nodes p n'))
  | arrival {mv : Move} {nodes' : State} (hs : Ptts.step s.nodes mv = some nodes') (hmv : ∀ p, mv ≠ .act p) :
      Moved cap s { s with nodes := nodes' }
  | send (p : Party) {x : Offer} {msg : Octets} {rest : List (Act Offer)} (hprog : s.prog p = .offer x :: rest)
      (hx : x.octets = some msg) (hcap : (s.queue p.peer).length < cap) :
      Moved cap s
        { s with prog := update s.prog p rest, queue := update s.queue p.peer (s.queue p.peer ++ [msg]) }
  | recv (p : Party) {x : Offer} {msg : Octets} {msgs : List Octets} {rest : List (Act Offer)}
      (hprog : s.prog p = .take x :: rest) (hx : x.octets.isSome = true) (hqueue : s.queue p = msg :: msgs) :
      Moved cap s
        { s with
          prog := update s.prog p rest
          queue := update s.queue p msgs
          wrong := update s.wrong p (if x.Taken msg then s.wrong p else s.wrong p + 1) }

theorem step_moved (hs : s.step cap mv = some s') : Moved cap s s' := by
  cases mv with
  | sync mv =>
      cases mv with
      | act p =>
          simp only [Suite.step] at hs
          split at hs
          · rename_i hat
            obtain ⟨nodes', hnodes, rfl⟩ := Option.map_eq_some_iff.mp hs
            obtain ⟨n', hact, rfl⟩ := Option.map_eq_some_iff.mp hnodes
            exact .call p hat hact
          · cases hs
      | update p | ack p =>
          obtain ⟨nodes', hnodes, rfl⟩ := Option.map_eq_some_iff.mp hs
          exact .arrival hnodes fun _ => Move.noConfusion
  | data p =>
      simp only [Suite.step] at hs
      split at hs
      · cases hs
      · rename_i x rest hprog
        obtain ⟨msg, hx, hsend⟩ := Option.bind_eq_some_iff.mp hs
        unfold Suite.send at hsend
        split at hsend
        · rename_i hcap
          obtain rfl := Option.some.inj hsend
          exact .send p hprog hx hcap
        · cases hsend
      · rename_i x rest hprog
        split at hs
        · rename_i hx
          unfold Suite.recv at hs
          split at hs
          · cases hs
          · rename_i msg msgs hqueue
            obtain rfl := Option.some.inj hs
            exact .recv p hprog hx hqueue
        · cases hs

/-- What the programs have before them. -/
def rank (s : Suite) : ℕ := Ptts.rank s.nodes + (s.prog .client).length + (s.prog .server).length

theorem length_update (prog : Party → List (Act Offer)) (p : Party) (rest : List (Act Offer)) :
    (update prog p rest .client).length + (update prog p rest .server).length + (prog p).length =
      (prog .client).length + (prog .server).length + rest.length := by
  cases p <;> simp <;> omega

/-- **Every move brings the suite forward.** -/
theorem step_rank (hs : s.step cap mv = some s') : s'.rank < s.rank := by
  cases step_moved hs with
  | @call p n' hat hact =>
      have hnode := Node.act_rank hact
      have hsum := rank_update s.nodes p n'
      have hlen := length_update s.prog p
        (if (update s.nodes p n' p).completed = (s.nodes p).completed then s.prog p else (s.prog p).tail)
      have htail : (if (update s.nodes p n' p).completed = (s.nodes p).completed then s.prog p
          else (s.prog p).tail).length ≤ (s.prog p).length := by
        split
        · exact Nat.le_refl _
        · rw [List.length_tail]
          exact Nat.sub_le _ _
      simp only [Suite.rank, syncCall]
      omega
  | arrival hnodes hmv =>
      have hlt := (Ptts.arrival hnodes hmv).2
      simp only [Suite.rank]
      omega
  | @send p x msg rest hprog hx hcap =>
      have hlen := length_update s.prog p rest
      rw [hprog, List.length_cons] at hlen
      simp only [Suite.rank]
      omega
  | @recv p x msg msgs rest hprog hx hqueue =>
      have hlen := length_update s.prog p rest
      rw [hprog, List.length_cons] at hlen
      simp only [Suite.rank]
      omega

end Suite

/-! ## Who leads -/

/-- One of the parties leads, and what it has sent and the other has not received waits there. -/
def InStep (prog : Party → List (Act Offer)) (queue : Party → List Octets) : Prop :=
  ∃ p d, Lead d (prog p) (prog p.peer) ∧ queue p.peer = d.filterMap Offer.octets ∧ queue p = []

section

variable {prog : Party → List (Act Offer)} {queue : Party → List Octets} {x : Offer} {rest : List (Act Offer)}

theorem filterMap_octets_concat (d : List Offer) (x : Offer) :
    (d ++ [x]).filterMap Offer.octets = d.filterMap Offer.octets ++ x.octets.toList := by
  rw [List.filterMap_append, List.filterMap_cons, List.filterMap_nil]
  cases x.octets <;> rfl

theorem filterMap_octets_cons (d : List Offer) (x : Offer) :
    (x :: d).filterMap Offer.octets = x.octets.toList ++ d.filterMap Offer.octets := by
  rw [List.filterMap_cons]
  cases x.octets <;> rfl

/-- Whoever offers leads then. -/
theorem InStep.offer (h : InStep prog queue) (q : Party) (hprog : prog q = .offer x :: rest) :
    InStep (update prog q rest) (update queue q.peer (queue q.peer ++ x.octets.toList)) := by
  obtain ⟨p, d, hlead, hpeer, hself⟩ := h
  have hne : p.peer ≠ p := p.peer_ne
  rcases Party.eq_or_eq_peer p q with rfl | rfl
  · refine ⟨q, d ++ [x], ?_, ?_, ?_⟩
    · rw [update_self, update_of_ne hne]
      rw [hprog] at hlead
      exact hlead.offer
    · rw [update_self, hpeer, filterMap_octets_concat]
    · rw [update_of_ne hne.symm, hself]
  · rw [hprog] at hlead
    obtain ⟨rfl, hlead'⟩ := hlead.offer_behind
    refine ⟨p.peer, [x], ?_, ?_, ?_⟩
    · rw [Party.peer_peer, update_self, update_of_ne hne.symm]
      exact hlead'
    · rw [Party.peer_peer, update_self, hself]
      exact (filterMap_octets_concat [] x).symm
    · rw [Party.peer_peer, update_of_ne hne, hpeer]
      rfl

/-- Whoever takes gets what was offered first, unless the other party has not made the offer. -/
theorem InStep.take (h : InStep prog queue) (q : Party) (hprog : prog q = .take x :: rest) :
    (queue q = [] ∧
        ∃ (d : List Offer) (b : List (Act Offer)), prog q.peer = d.map .take ++ .offer x :: b ∧ Lead [] rest b) ∨
      ∃ msgs, queue q = x.octets.toList ++ msgs ∧ InStep (update prog q rest) (update queue q msgs) := by
  obtain ⟨p, d, hlead, hpeer, hself⟩ := h
  have hne : p.peer ≠ p := p.peer_ne
  rcases Party.eq_or_eq_peer p q with rfl | rfl
  · rw [hprog] at hlead
    obtain ⟨b, hb, hrest⟩ := hlead.take
    exact .inl ⟨hself, d, b, hb, hrest⟩
  · rw [hprog] at hlead
    rw [Party.peer_peer]
    rcases hlead.take_behind with ⟨rfl, a', ha, hrest⟩ | ⟨d', rfl, hlead'⟩
    · exact .inl ⟨hpeer, [], a', ha, hrest.symm⟩
    · refine .inr ⟨d'.filterMap Offer.octets, hpeer.trans (filterMap_octets_cons d' x), p, d', ?_, ?_, ?_⟩
      · rw [update_self, update_of_ne hne.symm]
        exact hlead'
      · rw [update_self]
      · rw [update_of_ne hne.symm, hself]

end

/-! ## The invariant -/

@[simp] theorem syncCalls_cons_offer (t : SyncStep) (rest : List (Act Offer)) :
    syncCalls (t.offer :: rest) = t :: syncCalls rest := by
  obtain ⟨dir, id⟩ := t
  cases dir <;> rfl

@[simp] theorem syncCalls_append (l m : List (Act Offer)) : syncCalls (l ++ m) = syncCalls l ++ syncCalls m :=
  List.filterMap_append

theorem eq_offer_of_asSync {a : Act Offer} {t : SyncStep} (h : asSync a = some t) : a = t.offer := by
  cases a with
  | offer x | take x =>
      cases x with
      | signal id =>
          cases h
          rfl
      | message | testNumber => cases h

theorem asSync_of_octets {x : Offer} (h : x.octets.isSome = true) :
    asSync (.offer x) = none ∧ asSync (.take x) = none := by
  cases x with
  | signal => cases h
  | message | testNumber => exact ⟨rfl, rfl⟩

theorem asSync_dual (a : Act Offer) : asSync a.dual = (asSync a).map SyncStep.dual := by
  cases a with
  | offer x | take x => cases x <;> rfl

theorem syncCalls_dual (l : List (Act Offer)) : syncCalls (l.map Act.dual) = (syncCalls l).map SyncStep.dual := by
  rw [syncCalls, syncCalls, List.filterMap_map, List.map_filterMap]
  exact List.filterMap_congr fun a _ => asSync_dual a

theorem Suite.AtSync.exists_offer {s : Suite} {p : Party} (h : s.AtSync p) :
    ∃ (t : SyncStep) (rest : List (Act Offer)), s.prog p = t.offer :: rest := by
  unfold Suite.AtSync at h
  cases hprog : s.prog p with
  | nil =>
      rw [hprog] at h
      cases h
  | cons a rest =>
      rw [hprog] at h
      obtain ⟨t, ht⟩ := Option.isSome_iff_exists.mp h
      exact ⟨t, rest, by rw [eq_offer_of_asSync ht]⟩

/-- What the sender sends is what the receiver needs. -/
def Offer.Fits (x : Offer) : Prop := ∀ msg, x.octets = some msg → x.Taken msg

namespace Suite

/-- What holds of the two programs whatever the interleaving. -/
structure Invariant (s : Suite) : Prop where
  met : Met s.nodes
  /-- both parties have equally many synchronisations altogether -/
  even : ∀ p, (s.nodes p).completed + (s.nodes p).todo.length =
    (s.nodes p.peer).completed + (s.nodes p.peer).todo.length
  todo : ∀ p, (s.nodes p).todo = syncCalls (s.prog p)
  inStep : InStep s.prog s.queue
  fits : ∀ p, ∀ a ∈ s.prog p, a.what.Fits
  right : ∀ p, s.wrong p = 0

theorem syncCall_same (s : Suite) {p : Party} {n' : Node} (h : n'.completed = (s.nodes p).completed) :
    s.syncCall p (update s.nodes p n') = { s with nodes := update s.nodes p n' } := by
  rw [syncCall, update_self, if_pos h, update_eq_self]

theorem syncCall_next (s : Suite) {p : Party} {n' : Node} {a : Act Offer} {rest : List (Act Offer)}
    (h : n'.completed = (s.nodes p).completed + 1) (hprog : s.prog p = a :: rest) :
    s.syncCall p (update s.nodes p n') =
      { s with nodes := update s.nodes p n', prog := update s.prog p rest } := by
  rw [syncCall, update_self, if_neg (by omega), hprog, List.tail_cons]

variable {cap : ℕ} {s s' : Suite}

/-- The calls of a party and of its node go on together. -/
theorem todo_update {nodes : State} {prog : Party → List (Act Offer)} {p : Party} {n' : Node}
    {rest : List (Act Offer)} (h : ∀ q, (nodes q).todo = syncCalls (prog q)) (hp : n'.todo = syncCalls rest) (q : Party) :
    (update nodes p n' q).todo = syncCalls (update prog p rest q) := by
  rcases eq_or_ne q p with rfl | hne
  · rw [update_self, update_self, hp]
  · rw [update_of_ne hne, update_of_ne hne, h q]

theorem even_update {nodes : State} {p : Party} {n' : Node}
    (h : ∀ q, (nodes q).completed + (nodes q).todo.length = (nodes q.peer).completed + (nodes q.peer).todo.length)
    (hp : n'.completed + n'.todo.length = (nodes p).completed + (nodes p).todo.length) (q : Party) :
    (update nodes p n' q).completed + (update nodes p n' q).todo.length =
      (update nodes p n' q.peer).completed + (update nodes p n' q.peer).todo.length := by
  have hsum (r : Party) : (update nodes p n' r).completed + (update nodes p n' r).todo.length =
      (nodes r).completed + (nodes r).todo.length := by
    rcases eq_or_ne r p with rfl | hne
    · rw [update_self, hp]
    · rw [update_of_ne hne]
  rw [hsum, hsum, h q]

theorem fits_update {prog : Party → List (Act Offer)} {p : Party} {a : Act Offer} {rest : List (Act Offer)}
    (h : ∀ q, ∀ a ∈ prog q, a.what.Fits) (hp : prog p = a :: rest) (q : Party) :
    ∀ a ∈ update prog p rest q, a.what.Fits := by
  rcases eq_or_ne q p with rfl | hne
  · rw [update_self]
    intro a' ha'
    exact h q a' (by rw [hp]; exact List.mem_cons_of_mem a ha')
  · rw [update_of_ne hne]
    exact h q

/-- A synchronisation ends on the side that receives it only when it has ended on the other. -/
theorem Invariant.not_first (h : Invariant s) {p : Party} {id : ℤ} {rest b : List (Act Offer)} {d : List Offer}
    (hprog : s.prog p = .take (.signal id) :: rest)
    (hpeer : s.prog p.peer = d.map .take ++ .offer (.signal id) :: b) (hb : Lead [] rest b)
    (hk : (s.nodes p.peer).completed = (s.nodes p).completed + 1) : False := by
  have hmine : (s.nodes p).todo = ⟨.recv, id⟩ :: syncCalls rest := by rw [h.todo p, hprog]; rfl
  have hother : (s.nodes p.peer).todo = syncCalls (d.map .take) ++ ⟨.send, id⟩ :: syncCalls b := by
    rw [h.todo p.peer, hpeer, syncCalls_append]
    rfl
  have hlen : (syncCalls b).length = (syncCalls rest).length := by
    rw [show b = rest.map Act.dual from hb, syncCalls_dual, List.length_map]
  have heven := h.even p
  rw [hmine, hother, List.length_append, List.length_cons, List.length_cons] at heven
  omega

/-- The end of a synchronisation. -/
theorem Invariant.ended (h : Invariant s) {p : Party} {n' : Node} {t : SyncStep} {rest : List (Act Offer)}
    (hact : (s.nodes p).act p = some n') (hprog : s.prog p = t.offer :: rest) (htodo : (s.nodes p).todo = t :: n'.todo)
    (hk : n'.completed = (s.nodes p).completed + 1) (hpc : (s.nodes p).pc = .acknowledged ∨ (s.nodes p).pc = .ended) :
    Invariant { s with nodes := update s.nodes p n', prog := update s.prog p rest } where
  met := h.met.act hact
  even := even_update h.even (by rw [hk, htodo, List.length_cons]; omega)
  todo := by
    have hcalls := (h.todo p).symm.trans htodo
    rw [hprog, syncCalls_cons_offer] at hcalls
    exact todo_update h.todo (List.cons.inj hcalls).2.symm
  inStep := by
    obtain ⟨dir, id⟩ := t
    cases dir with
    | send =>
        have hoffer := h.inStep.offer p hprog
        rwa [show s.queue p.peer ++ (Offer.signal id).octets.toList = s.queue p.peer from List.append_nil _,
          update_eq_self] at hoffer
    | recv =>
        have hpeer : (s.nodes p.peer).completed = (s.nodes p).completed + 1 := by
          rcases h.met.ending p hpc with ⟨id', ts, hsend⟩ | hpeer
          · rw [htodo] at hsend
            cases hsend
          · exact hpeer
        rcases h.inStep.take p hprog with ⟨-, d, b, hb, hrest⟩ | ⟨msgs, hqueue, htake⟩
        · exact (h.not_first hprog hb hrest hpeer).elim
        · have hmsgs : msgs = s.queue p := hqueue.symm
          rwa [hmsgs, update_eq_self] at htake
  fits := fits_update h.fits hprog
  right := h.right

/-- A message is no synchronisation. -/
theorem Invariant.todo_data (h : Invariant s) {p : Party} {a : Act Offer} {rest : List (Act Offer)}
    (hprog : s.prog p = a :: rest) (ha : asSync a = none) (q : Party) :
    (s.nodes q).todo = syncCalls (update s.prog p rest q) := by
  have hcalls : (s.nodes p).todo = syncCalls rest := by
    rw [h.todo p, hprog, syncCalls, List.filterMap_cons_none ha]
    rfl
  have htodo : (update s.nodes p (s.nodes p) q).todo = syncCalls (update s.prog p rest q) :=
    todo_update h.todo hcalls q
  rwa [update_eq_self] at htodo

/-- **The step lemma.** -/
theorem Invariant.moved (h : Invariant s) (hm : Moved cap s s') : Invariant s' := by
  cases hm with
  | @call p n' hat hact =>
      obtain ⟨t, rest, hprog⟩ := hat.exists_offer
      rcases Node.act_cases hact with ⟨htodo, hk⟩ | ⟨⟨t', htodo⟩, hk, -, hpc⟩
      · rw [syncCall_same s hk]
        have hcalls (q : Party) : (update s.nodes p n' q).todo = syncCalls (update s.prog p (s.prog p) q) :=
          todo_update h.todo (htodo.trans (h.todo p)) q
        rw [update_eq_self] at hcalls
        exact { h with
          met := h.met.act hact
          even := even_update h.even (by rw [htodo, hk])
          todo := hcalls }
      · rw [syncCall_next s hk hprog]
        have hcalls := (h.todo p).symm.trans htodo
        rw [hprog, syncCalls_cons_offer] at hcalls
        obtain rfl := (List.cons.inj hcalls).1
        exact h.ended hact hprog htodo hk hpc
  | @arrival mv nodes' hnodes hmv =>
      have hsame := (Ptts.arrival hnodes hmv).1
      exact { h with
        met := h.met.step hnodes
        even := fun p => by rw [hsame.todo, hsame.todo, hsame.completed, hsame.completed]; exact h.even p
        todo := fun p => (hsame.todo p).trans (h.todo p) }
  | @send p x msg rest hprog hx hcap =>
      have hoffer := h.inStep.offer p hprog
      rw [hx] at hoffer
      exact { h with
        todo := h.todo_data hprog (asSync_of_octets (by rw [hx]; rfl)).1
        inStep := hoffer
        fits := fits_update h.fits hprog }
  | @recv p x msg msgs rest hprog hx hqueue =>
      obtain ⟨msg', hx'⟩ := Option.isSome_iff_exists.mp hx
      rcases h.inStep.take p hprog with ⟨hempty, -⟩ | ⟨msgs', hqueue', htake⟩
      · rw [hqueue] at hempty
        cases hempty
      · rw [hqueue, hx'] at hqueue'
        obtain ⟨rfl, rfl⟩ := List.cons.inj (hqueue' : msg :: msgs = msg' :: msgs')
        have hfits : x.Fits := h.fits p (.take x) (by rw [hprog]; exact List.mem_cons_self)
        refine { h with
          todo := h.todo_data hprog (asSync_of_octets hx).2
          inStep := htake
          fits := fits_update h.fits hprog
          right := ?_ }
        intro q
        rw [if_pos (hfits msg hx'), update_eq_self]
        exact h.right q

/-- Before the first call, two dual programs are in step. -/
theorem invariant_start {prog : Party → List (Act Offer)} (hdual : Lead [] (prog .client) (prog .server))
    (hfits : ∀ a ∈ prog .client, a.what.Fits) : Invariant (start prog) where
  met := by
    have hserver : prog .server = (prog .client).map Act.dual := hdual
    have hstart : (start prog).nodes = Ptts.start (syncCalls (prog .client)) := by
      funext p
      cases p with
      | client => rfl
      | server => exact congrArg (Node.idle 0) (by rw [hserver, syncCalls_dual]; rfl)
    rw [hstart]
    exact met_start _
  even := by
    have hserver : prog .server = (prog .client).map Act.dual := hdual
    intro p
    cases p <;> simp [start, Node.idle, Party.peer, hserver, syncCalls_dual]
  todo := fun _ => rfl
  inStep := ⟨.client, [], hdual, rfl, rfl⟩
  fits := by
    have hserver : prog .server = (prog .client).map Act.dual := hdual
    intro p
    cases p with
    | client => exact hfits
    | server =>
        intro a ha
        rw [show (start prog).prog .server = (prog .client).map Act.dual from hserver] at ha
        obtain ⟨a', ha', rfl⟩ := List.mem_map.mp ha
        rw [Act.what_dual]
        exact hfits a' ha'
  right := fun _ => rfl

/-! ## A program that would go on -/

/-- The parties have `extra` to do after their programs. -/
def more (extra : Party → List (Act Offer)) (s : Suite) : Suite :=
  { s with
    nodes := fun p => (s.nodes p).more (syncCalls (extra p))
    prog := fun p => s.prog p ++ extra p }

variable {extra : Party → List (Act Offer)}

theorem start_more (prog : Party → List (Act Offer)) :
    (start prog).more extra = start fun p => prog p ++ extra p := by
  simp only [start, more, syncCalls_append]
  rfl

theorem AtSync.more {p : Party} (h : s.AtSync p) : (s.more extra).AtSync p := by
  obtain ⟨t, rest, hprog⟩ := h.exists_offer
  unfold AtSync at h ⊢
  rw [hprog] at h
  rw [show (s.more extra).prog p = t.offer :: (rest ++ extra p) by rw [← List.cons_append, ← hprog]; rfl]
  exact h

theorem more_update (nodes : State) (p : Party) (n' : Node) :
    (fun q => (update nodes p n' q).more (syncCalls (extra q))) =
      update (fun q => (nodes q).more (syncCalls (extra q))) p (n'.more (syncCalls (extra p))) := by
  funext q
  rcases eq_or_ne q p with rfl | hne
  · rw [update_self, update_self]
  · rw [update_of_ne hne, update_of_ne hne]

theorem append_update (prog : Party → List (Act Offer)) (p : Party) (rest : List (Act Offer)) :
    (fun q => update prog p rest q ++ extra q) = update (fun q => prog q ++ extra q) p (rest ++ extra p) := by
  funext q
  rcases eq_or_ne q p with rfl | hne
  · rw [update_self, update_self]
  · rw [update_of_ne hne, update_of_ne hne]

/-- What arrives, arrives at nodes that would go on. -/
theorem arrival_more {nodes nodes' : State} {mv : Move} (hs : Ptts.step nodes mv = some nodes')
    (hmv : ∀ p, mv ≠ .act p) :
    Ptts.step (fun q => (nodes q).more (syncCalls (extra q))) mv =
      some fun q => (nodes' q).more (syncCalls (extra q)) := by
  cases mv with
  | act p => exact absurd rfl (hmv p)
  | update p =>
      simp only [Ptts.step] at hs ⊢
      split at hs
      · cases hs
      · rename_i u us hu
        obtain rfl := Option.some.inj hs
        have hsent := @more_update extra nodes p { nodes p with updates := us }
        have hpeer := congrFun hsent p.peer
        rw [more_update, ← Node.learn_more, hsent, hpeer,
          show ((nodes p).more (syncCalls (extra p))).updates = u :: us from hu]
        rfl
  | ack p =>
      simp only [Ptts.step] at hs ⊢
      split at hs
      · cases hs
      · rename_i m ms hm
        obtain rfl := Option.some.inj hs
        have hsent := @more_update extra nodes p { nodes p with acks := ms }
        have howner := congrFun hsent m.port.owner
        rw [more_update, ← Node.receive_more, hsent, howner,
          show ((nodes p).more (syncCalls (extra p))).acks = m :: ms from hm]
        rfl

/-- A party that would go on makes its calls in the same way. -/
theorem Moved.more (h : Moved cap s s') : Moved cap (s.more extra) (s'.more extra) := by
  cases h with
  | @call p n' hat hact =>
      have hcall : Moved cap (s.more extra)
          ((s.more extra).syncCall p (update (s.more extra).nodes p (n'.more (syncCalls (extra p))))) :=
        .call p hat.more (Node.act_more (syncCalls (extra p)) hact)
      obtain ⟨t, rest, hprog⟩ := hat.exists_offer
      have hmine : (s.more extra).prog p = t.offer :: (rest ++ extra p) := by
        rw [← List.cons_append, ← hprog]
        rfl
      rcases Node.act_cases hact with ⟨-, hk⟩ | ⟨-, hk, -⟩
      · rw [syncCall_same s hk]
        have hk' : (n'.more (syncCalls (extra p))).completed = ((s.more extra).nodes p).completed := hk
        rw [syncCall_same (s.more extra) hk'] at hcall
        simp only [Suite.more, more_update]
        exact hcall
      · rw [syncCall_next s hk hprog]
        have hk' : (n'.more (syncCalls (extra p))).completed = ((s.more extra).nodes p).completed + 1 := hk
        rw [syncCall_next (s.more extra) hk' hmine] at hcall
        simp only [Suite.more, more_update, append_update]
        exact hcall
  | @arrival mv nodes' hnodes hmv => exact .arrival (arrival_more hnodes hmv) hmv
  | @send p x msg rest hprog hx hcap =>
      have hprog' : (s.more extra).prog p = .offer x :: (rest ++ extra p) := by
        rw [← List.cons_append, ← hprog]
        rfl
      have hsend := Moved.send p hprog' hx (show ((s.more extra).queue p.peer).length < cap from hcap)
      simp only [Suite.more, append_update]
      exact hsend
  | @recv p x msg msgs rest hprog hx hqueue =>
      have hprog' : (s.more extra).prog p = .take x :: (rest ++ extra p) := by
        rw [← List.cons_append, ← hprog]
        rfl
      have hqueue' : (s.more extra).queue p = msg :: msgs := hqueue
      have hrecv := @Moved.recv cap _ p _ _ _ _ hprog' hx hqueue'
      simp only [Suite.more, append_update]
      exact hrecv

/-! ## Somebody can move -/

/-- The first calls of two programs that are in step. -/
theorem enabled_call {p : Party} (hat : s.AtSync p) (hact : ((s.nodes p).act p).isSome = true) :
    (s.step cap (.sync (.act p))).isSome = true := by
  obtain ⟨n', hn⟩ := Option.isSome_iff_exists.mp hact
  simp only [Suite.step, if_pos hat, Ptts.step, hn]
  rfl

theorem enabled_update {p : Party} (h : (s.nodes p).updates ≠ []) :
    (s.step cap (.sync (.update p))).isSome = true := by
  obtain ⟨u, us, hu⟩ := List.exists_cons_of_ne_nil h
  simp only [Suite.step, Ptts.step, hu]
  rfl

theorem enabled_ack {p : Party} (h : (s.nodes p).acks ≠ []) : (s.step cap (.sync (.ack p))).isSome = true := by
  obtain ⟨m, ms, hm⟩ := List.exists_cons_of_ne_nil h
  simp only [Suite.step, Ptts.step, hm]
  rfl

theorem enabled_send {p : Party} {x : Offer} {msg : Octets} {rest : List (Act Offer)} (hprog : s.prog p = .offer x :: rest)
    (hx : x.octets = some msg) (hcap : (s.queue p.peer).length < cap) : (s.step cap (.data p)).isSome = true := by
  simp only [Suite.step, hprog, hx, Option.bind_some, Suite.send, if_pos hcap]
  rfl

theorem enabled_recv {p : Party} {x : Offer} {rest : List (Act Offer)} (hprog : s.prog p = .take x :: rest)
    (hx : x.octets.isSome = true) (hqueue : s.queue p ≠ []) : (s.step cap (.data p)).isSome = true := by
  obtain ⟨msg, msgs, hmsg⟩ := List.exists_cons_of_ne_nil hqueue
  simp only [Suite.step, hprog, hx, if_true, Suite.recv, hmsg]
  rfl

/-- A node that would go on, and has a call of its own to make, makes it. -/
theorem act_of_more {n : Node} {q : Party} {ts : List SyncStep} (h : ((n.more ts).act q).isSome = true)
    (hne : n.todo ≠ []) : (n.act q).isSome = true := by
  obtain ⟨⟨dir, id⟩, rest, htodo⟩ := List.exists_cons_of_ne_nil hne
  cases hpc : n.pc with
  | idle | acknowledged | ended => cases dir <;> simp [Node.act, hpc, htodo]
  | bound =>
      cases hinbox : n.inbox with
      | nil => simp [Node.act, Node.more, hpc, hinbox] at h
      | cons m ms => simp [Node.act, hpc, hinbox]
  | subscribed | ackSent =>
      cases hevents : n.events with
      | nil => simp [Node.act, Node.more, hpc, hevents] at h
      | cons e es => simp [Node.act, hpc, hevents]
  | detected =>
      simp only [Node.act, hpc, htodo]
      split <;> rfl
  | failed e => simp [Node.act, Node.more, hpc] at h

/-- Both programs are at the same synchronisation. -/
theorem live_sync (h : Invariant (s.more extra)) (hat : ∀ p, s.AtSync p) : ∃ mv, (s.step cap mv).isSome = true := by
  have htodo (p : Party) : (s.nodes p).todo ≠ [] := by
    obtain ⟨t, rest, hprog⟩ := (hat p).exists_offer
    have hcalls : (s.nodes p).todo ++ syncCalls (extra p) = syncCalls (s.prog p ++ extra p) := h.todo p
    rw [syncCalls_append, hprog, syncCalls_cons_offer] at hcalls
    rw [List.append_cancel_right hcalls]
    exact List.cons_ne_nil _ _
  obtain ⟨p, hj⟩ := h.met
  rcases hj.live with hx | hy | hu | ha | ⟨hx, -⟩
  · exact ⟨_, enabled_call (hat p) (act_of_more hx (htodo p))⟩
  · exact ⟨_, enabled_call (hat p.peer) (act_of_more hy (htodo p.peer))⟩
  · exact ⟨_, enabled_update (p := p) hu⟩
  · exact ⟨_, enabled_ack (p := p.peer) ha⟩
  · exact absurd (List.append_eq_nil_iff.mp hx).1 (htodo p)

/-- The other party leads by an offer that this one is to take. -/
theorem live_behind (h : Invariant (s.more extra)) {p : Party} {x : Offer} {rest : List (Act Offer)} {d : List Offer}
    (hlead : Lead (x :: d) (s.prog p.peer ++ extra p.peer) (s.prog p ++ extra p)) (hprog : s.prog p = .take x :: rest)
    (hqueue : s.queue p = (x :: d).filterMap Offer.octets) : ∃ mv, (s.step cap mv).isSome = true := by
  cases hx : x.octets with
  | some msg =>
      rw [List.filterMap_cons_some hx] at hqueue
      exact ⟨_, enabled_recv hprog (by rw [hx]; rfl) (by rw [hqueue]; exact List.cons_ne_nil _ _)⟩
  | none =>
      -- a signal that the other party has had acknowledged
      obtain ⟨id, rfl⟩ : ∃ id, x = .signal id := by
        cases x with
        | signal id => exact ⟨id, rfl⟩
        | message | testNumber => cases hx
      have hmine : (s.more extra).prog p =
          .take (.signal id) :: (d.map .take ++ ((s.more extra).prog p.peer).map Act.dual) := hlead
      have heven := h.even p
      have hlen : (syncCalls ((s.more extra).prog p)).length =
          1 + (syncCalls (d.map .take)).length + (syncCalls ((s.more extra).prog p.peer)).length := by
        rw [hmine, show syncCalls (.take (.signal id) :: _) = ⟨.recv, id⟩ :: syncCalls _ from rfl, List.length_cons,
          syncCalls_append, List.length_append, syncCalls_dual, List.length_map]
        omega
      rw [h.todo p, h.todo p.peer, hlen] at heven
      have hat : s.AtSync p := by
        unfold AtSync
        rw [hprog]
        rfl
      have htodo : (s.nodes p).todo ≠ [] := by
        have hcalls : (s.nodes p).todo ++ syncCalls (extra p) = syncCalls (s.prog p ++ extra p) := h.todo p
        rw [syncCalls_append] at hcalls
        rw [List.append_cancel_right hcalls, hprog]
        exact List.cons_ne_nil _ _
      rcases h.met.behind p (by omega) with hact | hupdates
      · exact ⟨_, enabled_call hat (act_of_more hact htodo)⟩
      · exact ⟨_, enabled_update (p := p.peer) hupdates⟩

/-- Neither party leads. -/
theorem live_even (h : Invariant (s.more extra)) (hextra : extra .server = []) (hcap : 1 ≤ cap)
    (hlead : Lead [] (s.prog .client ++ extra .client) (s.prog .server ++ extra .server)) (hqueue : ∀ p, s.queue p = []) :
    (∃ mv, (s.step cap mv).isSome = true) ∨
      s.prog .client = [] ∧ s.prog .server <:+ (extra .client).map Act.dual := by
  have hserver : s.prog .server = (s.prog .client ++ extra .client).map Act.dual := by
    rw [hextra, List.append_nil] at hlead
    exact hlead
  have hroom (p : Party) : (s.queue p).length < cap := by rw [hqueue]; exact hcap
  cases hclient : s.prog .client with
  | nil =>
      rw [hclient] at hserver
      exact .inr ⟨rfl, hserver ▸ List.suffix_refl _⟩
  | cons a rest =>
      left
      rw [hclient, List.cons_append, List.map_cons] at hserver
      cases ha : asSync a with
      | some t =>
          apply live_sync h
          intro p
          unfold AtSync
          cases p with
          | client => rw [hclient]; exact Option.isSome_of_eq_some ha
          | server => rw [hserver]; exact Option.isSome_of_eq_some ((asSync_dual a).trans (congrArg _ ha))
      | none =>
          -- a message: the party that sends it has room
          cases a with
          | offer x =>
              cases x with
              | signal => cases ha
              | message | testNumber => exact ⟨_, enabled_send hclient rfl (hroom _)⟩
          | take x =>
              cases x with
              | signal => cases ha
              | message | testNumber => exact ⟨_, enabled_send (p := .server) hserver rfl (hroom _)⟩

/-- **The suite never gets stuck**: somebody can move, or the client is at its end and the server has at most what it
    does beyond the client's program. -/
theorem live (h : Invariant (s.more extra)) (hextra : extra .server = []) (hcap : 1 ≤ cap) :
    (∃ mv, (s.step cap mv).isSome = true) ∨
      s.prog .client = [] ∧ s.prog .server <:+ (extra .client).map Act.dual := by
  obtain ⟨p, d, hlead, hpeer, hself⟩ := h.inStep
  cases d with
  | nil =>
      have hqueue (q : Party) : s.queue q = [] := by
        rcases Party.eq_or_eq_peer p q with rfl | rfl
        · exact hself
        · exact hpeer
      apply live_even h hextra hcap _ hqueue
      cases p with
      | client => exact hlead
      | server => exact hlead.symm
  | cons x d =>
      cases hprog : s.prog p.peer with
      | nil =>
          have hown : extra p.peer = .take x :: (d.map .take ++ ((s.more extra).prog p).map Act.dual) := by
            rw [Lead, show (s.more extra).prog p.peer = extra p.peer by simp [Suite.more, hprog]] at hlead
            exact hlead
          cases p with
          | client =>
              rw [show Party.client.peer = Party.server from rfl, hextra] at hown
              cases hown
          | server =>
              right
              refine ⟨hprog, ?_⟩
              have hserver : (s.more extra).prog .server = s.prog .server := by
                show s.prog .server ++ extra .server = s.prog .server
                rw [hextra, List.append_nil]
              rw [show extra .client = _ from hown, hserver, ← List.cons_append, List.map_append,
                Duplex.map_dual_map_dual]
              exact List.suffix_append _ _
      | cons a rest =>
          left
          have hcons : s.prog p.peer ++ extra p.peer =
              .take x :: (d.map .take ++ ((s.more extra).prog p).map Act.dual) := hlead
          rw [hprog] at hcons
          obtain rfl := (List.cons.inj hcons).1
          apply live_behind h (p := p.peer) _ hprog hpeer
          rw [Party.peer_peer]
          exact hlead

end Suite

end Ptts
end Tipcutils
