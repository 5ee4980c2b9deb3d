import Tipcutils.Benchmark.Rounds
import Tipcutils.Lib.While

/-!
# `Benchmark.Options` — the options of the TIPC benchmark, and its arithmetic

The options give the numbers of messages and clients and the lengths of the messages, from which `main` computes the
rounds of its two measurement loops. **`measure_defined_iff`** says for which values both loops end without a division by
zero, in `main` or in `stream_messages`.

Not modelled: the options `-p` and `-i`, which set no numbers, and how the times are measured.
-/

namespace Tipcutils
namespace Benchmark

/-! ## The options -/

/-- An option with its argument, as `atoi` reads it; `-l` and `-t` take only an argument that is attached (`-l5`). -/
inductive Opt where
  | l (optarg : Option Int32)
  | t (optarg : Option Int32)
  | m (optarg : Int32)
  | c (optarg : Int32)
deriving DecidableEq

/-- The variables of `main` that the options set. -/
structure Params where
  latencyTransf : UInt32
  thruputTransf : UInt32
  reqClients : UInt32
  firstMsglen : UInt32
  lastMsglen : UInt32
deriving DecidableEq

/-- `DEFAULT_LAT_MSGS`, `DEFAULT_THRU_MSGS`, `DEFAULT_CLIENTS`, `DEFAULT_MSGLEN` and `TIPC_MAX_USER_MSG_SIZE`. -/
def defaultLatMsgs : UInt32 := 80000
def defaultThruMsgs : UInt32 := 640000
def defaultClients : UInt32 := 1
def defaultMsglen : UInt32 := 64
def tipcMaxUserMsgSize : UInt32 := 66000

def Params.default : Params := ⟨defaultLatMsgs, defaultThruMsgs, defaultClients, defaultMsglen, tipcMaxUserMsgSize⟩

/-- One round of the loop over the options; `none` is `die`. -/
def Params.option (p : Params) : Opt → Option Params
  | .l optarg => some { p with latencyTransf := (optarg.map Int32.toUInt32).getD p.latencyTransf, thruputTransf := 0 }
  | .t optarg => some { p with thruputTransf := (optarg.map Int32.toUInt32).getD p.thruputTransf, latencyTransf := 0 }
  | .m optarg => some { p with firstMsglen := optarg.toUInt32, lastMsglen := optarg.toUInt32 }
  | .c optarg => if optarg.toUInt32 = 0 then none else some { p with reqClients := optarg.toUInt32 }

/-- The loop over the options. -/
def Params.ofOptions (opts : List Opt) : Option Params := opts.foldlM Params.option .default

/-- With a server on another node, the default numbers of messages are lower. -/
def Params.forPeer (p : Params) (remote : Bool) : Params :=
  if remote then
    { p with
      latencyTransf := if p.latencyTransf = defaultLatMsgs then p.latencyTransf / 10 else p.latencyTransf
      thruputTransf := if p.thruputTransf = defaultThruMsgs then p.thruputTransf / 10 else p.thruputTransf }
  else p

/-! ## The measurement loops -/

/-- A division of `unsigned long long`; `none` is a division by zero. -/
def divUll (a b : UInt64) : Option UInt64 := if b = 0 then none else some (a / b)

/-- `1 << n`, which is defined for an `int` up to 30. -/
def shlOne (n : UInt64) : Option UInt64 := if n < 31 then some (1 <<< n) else none

/-- The divisions of `stream_messages`. -/
def yields (msglen : ℤ) : Option (ℤ × ℤ) :=
  if msglen = 0 then none else some ((2 ^ 21 : ℤ).tdiv msglen, (2 ^ 22 : ℤ).tdiv msglen)

/-- The variables of a measurement loop, with what it has printed. -/
structure Measured (α : Type) where
  msglen : UInt64
  iter : UInt64
  lines : List α

section
variable {α : Type} (p : Params) (round : UInt64 → UInt64 → Option α)

def Measured.goesOn (s : Measured α) : Bool := s.msglen ≤ p.lastMsglen.toUInt64

def Measured.body (s : Measured α) : Option (Measured α) :=
  (round s.msglen s.iter).map fun line => ⟨s.msglen * 4, s.iter + 1, s.lines ++ [line]⟩

/-- A measurement loop: `msglen` grows from `first_msglen` to `last_msglen`. -/
def measureLoop (fuel : ℕ) : Option (Measured α) :=
  whileLoop (Measured.goesOn p) (Measured.body round) fuel ⟨p.firstMsglen.toUInt64, 1, []⟩

end

/-- What the master sends for a round. -/
def roundOf (msglen msgcnt : UInt64) (bounce : UInt32) : Round := ⟨msglen.toUInt32, msgcnt.toUInt32, bounce⟩

/-- A line about a round of the latency test. -/
structure LatencyLine where
  msglen : UInt64
  msgcnt : UInt64
  msecs : UInt64
  latencyUs : UInt64
  latencyDec : UInt64

/-- A round of the latency test; `elapsed` is the time that it takes. -/
def latencyRound (p : Params) (elapsed : UInt64 → UInt64) (msglen iter : UInt64) : Option LatencyLine := do
  let msgcnt ← divUll p.latencyTransf.toUInt64 iter
  let _ ← yields (asInt (roundOf msglen msgcnt 1).msglen)
  let latency ← divUll (elapsed iter) msgcnt
  some ⟨msglen, msgcnt, elapsed iter / 1000, latency, latency % 100⟩

/-- A line about a round of the throughput test. -/
structure ThruputLine where
  msglen : UInt64
  numClients : UInt64
  msgcnt : UInt64
  msecs : UInt64
  msgPerSec : UInt64
  thruput : UInt64
  perClient : UInt64

/-- A round of the throughput test. -/
def thruputRound (p : Params) (numClients : UInt64) (elapsed : UInt64 → UInt64) (msglen iter : UInt64) :
    Option ThruputLine := do
  let divisor ← shlOne (iter - 1)
  let msgcnt ← divUll p.thruputTransf.toUInt64 divisor
  let _ ← yields (asInt (roundOf msglen msgcnt 0).msglen)
  let msgPerSec ← divUll (msgcnt * numClients * 1000000) (elapsed iter)
  let thruput := msgPerSec * msglen * 8 / 1000000
  let perClient ← divUll thruput numClients
  some ⟨msglen, numClients, msgcnt, elapsed iter / 1000, msgPerSec, thruput, perClient⟩

/-- The loop that creates the remaining clients. -/
def createClients (p : Params) (numClients : UInt64) : Option UInt64 :=
  whileLoop (fun n => decide (n < p.reqClients.toUInt64)) (fun n => some (n + 1)) (p.reqClients.toNat + 1) numClients

section
variable (p : Params) (latencyTimes thruputTimes : UInt64 → UInt64) (fuel : ℕ)

/-- The latency test. A test without messages is left out. -/
def latencyTest : Option (List LatencyLine) :=
  if p.latencyTransf = 0 then some [] else (measureLoop p (latencyRound p latencyTimes) fuel).map Measured.lines

/-- The throughput test. The latency test has created one client, if there was one. -/
def thruputTest : Option (List ThruputLine) :=
  if p.thruputTransf = 0 then some []
  else (createClients p (if p.latencyTransf = 0 then 0 else 1)).bind fun numClients =>
    (measureLoop p (thruputRound p numClients thruputTimes) fuel).map Measured.lines

/-- The two tests of `main`, with the times that their rounds take. -/
def measure : Option (List LatencyLine × List ThruputLine) :=
  (latencyTest p latencyTimes fuel).bind fun latencies =>
    (thruputTest p thruputTimes fuel).map fun thruputs => (latencies, thruputs)

end

/-! ## The rounds of a loop -/

/-- The lengths that a measurement loop goes through. -/
def Visits (last : UInt64) : UInt64 → List UInt64 → Prop
  | msglen, [] => ¬ msglen ≤ last
  | msglen, len :: lens => len = msglen ∧ msglen ≤ last ∧ Visits last (msglen * 4) lens

/-- All rounds are defined. -/
def AllDefined {α : Type} (round : UInt64 → UInt64 → Option α) : UInt64 → List UInt64 → Prop
  | _, [] => True
  | iter, len :: lens => (round len iter).isSome ∧ AllDefined round (iter + 1) lens

section
variable {α : Type} {p : Params} {round : UInt64 → UInt64 → Option α} {lens : List UInt64}

/-- A loop that goes through finitely many lengths ends if and only if all its rounds are defined. -/
theorem loop_isSome_iff {s : Measured α} (h : Visits p.lastMsglen.toUInt64 s.msglen lens) :
    (∃ fuel, (whileLoop (Measured.goesOn p) (Measured.body round) fuel s).isSome) ↔ AllDefined round s.iter lens := by
  induction lens generalizing s with
  | nil =>
    have hstop : Measured.goesOn p s = false := decide_eq_false h
    refine iff_of_true ⟨1, ?_⟩ trivial
    rw [whileLoop_of_false hstop]
    rfl
  | cons len lens ih =>
    obtain ⟨rfl, hle, hrest⟩ := h
    have hgo : Measured.goesOn p s = true := decide_eq_true hle
    rw [AllDefined]
    cases hround : round s.msglen s.iter with
    | none =>
      have hbody : Measured.body round s = none := by
        rw [Measured.body, hround]
        rfl
      refine iff_of_false ?_ fun hall => absurd hall.1 Bool.false_ne_true
      rintro ⟨fuel, hsome⟩
      cases fuel with
      | zero => cases hsome
      | succ fuel =>
        rw [whileLoop, if_pos hgo, hbody] at hsome
        cases hsome
    | some line =>
      have hbody : Measured.body round s = some ⟨s.msglen * 4, s.iter + 1, s.lines ++ [line]⟩ := by
        rw [Measured.body, hround]
        rfl
      have hih := @ih ⟨s.msglen * 4, s.iter + 1, s.lines ++ [line]⟩ hrest
      constructor
      · rintro ⟨fuel, hsome⟩
        cases fuel with
        | zero => cases hsome
        | succ fuel =>
          rw [whileLoop_of_true hgo hbody] at hsome
          exact ⟨rfl, hih.mp ⟨fuel, hsome⟩⟩
      · rintro ⟨-, hall⟩
        obtain ⟨fuel, hsome⟩ := hih.mpr hall
        refine ⟨fuel + 1, ?_⟩
        rw [whileLoop_of_true hgo hbody]
        exact hsome

theorem measureLoop_isSome_iff (h : Visits p.lastMsglen.toUInt64 p.firstMsglen.toUInt64 lens) :
    (∃ fuel, (measureLoop p round fuel).isSome) ↔ AllDefined round 1 lens :=
  @loop_isSome_iff α p round lens ⟨p.firstMsglen.toUInt64, 1, []⟩ h

/-- A loop whose first round is not defined does not end. -/
theorem measureLoop_eq_none (hle : p.firstMsglen.toUInt64 ≤ p.lastMsglen.toUInt64)
    (hround : round p.firstMsglen.toUInt64 1 = none) (fuel : ℕ) : measureLoop p round fuel = none := by
  cases fuel with
  | zero => rfl
  | succ fuel =>
    have hgo : Measured.goesOn p (⟨p.firstMsglen.toUInt64, 1, []⟩ : Measured α) = true := decide_eq_true hle
    rw [measureLoop, whileLoop, if_pos hgo, Measured.body, hround]
    rfl

theorem allDefined_iff (round : UInt64 → UInt64 → Option α) (lens : List UInt64) (n : ℕ) :
    AllDefined round (.ofNat n) lens ↔ ∀ k (h : k < lens.length), (round lens[k] (.ofNat (n + k))).isSome := by
  induction lens generalizing n with
  | nil => exact iff_of_true trivial nofun
  | cons len lens ih =>
    have hnext : UInt64.ofNat n + 1 = .ofNat (n + 1) := by
      rw [UInt64.ofNat_add]
      rfl
    rw [AllDefined, hnext, ih]
    constructor
    · rintro ⟨hfirst, hrest⟩ k hk
      cases k with
      | zero => exact hfirst
      | succ k =>
        have hk := hrest k (Nat.lt_of_succ_lt_succ hk)
        rwa [Nat.add_right_comm] at hk
    · intro hall
      refine ⟨hall 0 (Nat.zero_lt_succ _), fun k hk => ?_⟩
      have hk := hall (k + 1) (Nat.succ_lt_succ hk)
      rwa [← Nat.add_assoc, Nat.add_right_comm] at hk

end

/-! ## When a round is defined -/

theorem asInt_eq_zero_iff {x : UInt32} : asInt x = 0 ↔ x = 0 := by
  have hx := x.toNat_lt
  rw [asInt, ← UInt32.toNat_inj]
  show _ ↔ x.toNat = 0
  split <;> omega

theorem yields_isSome_iff {x : UInt32} : (yields (asInt x)).isSome ↔ x ≠ 0 := by
  rw [yields, ne_eq, ← asInt_eq_zero_iff]
  split <;> simp [*]

theorem divUll_isSome_iff {a b : UInt64} : (divUll a b).isSome ↔ b ≠ 0 := by
  unfold divUll
  split <;> simp [*]

/-- A round of the latency test needs messages, and octets in them. -/
theorem latencyRound_isSome_iff {p : Params} {elapsed : UInt64 → UInt64} {msglen : UInt64} {iter : ℕ} (hpos : 1 ≤ iter)
    (hlt : iter < 2 ^ 64) :
    (latencyRound p elapsed msglen (.ofNat iter)).isSome ↔ msglen.toUInt32 ≠ 0 ∧ iter ≤ p.latencyTransf.toNat := by
  have hiter : (UInt64.ofNat iter).toNat = iter := UInt64.toNat_ofNat_of_lt' hlt
  have hne : UInt64.ofNat iter ≠ 0 := by
    rw [ne_eq, ← UInt64.toNat_inj, hiter]
    exact Nat.one_le_iff_ne_zero.mp hpos
  have hcnt : p.latencyTransf.toUInt64 / .ofNat iter ≠ 0 ↔ iter ≤ p.latencyTransf.toNat := by
    rw [ne_eq, ← UInt64.toNat_inj, UInt64.toNat_div, hiter, UInt32.toNat_toUInt64]
    show ¬ p.latencyTransf.toNat / iter = 0 ↔ _
    rw [Nat.div_eq_zero_iff]
    omega
  rw [latencyRound, divUll, if_neg hne, ← hcnt, ← @yields_isSome_iff msglen.toUInt32]
  show ((yields (asInt msglen.toUInt32)).bind _).isSome ↔ _
  cases hyields : yields (asInt msglen.toUInt32) with
  | none => simp
  | some y =>
    rw [Option.bind_some]
    show ((divUll _ _).bind _).isSome ↔ _
    rw [← @divUll_isSome_iff (elapsed (.ofNat iter))]
    cases divUll (elapsed (.ofNat iter)) (p.latencyTransf.toUInt64 / .ofNat iter) <;> simp

/-- The divisor of the throughput test. -/
theorem shlOne_of_lt {n : ℕ} (h : n < 31) : ∃ d, shlOne (.ofNat n) = some d ∧ d ≠ 0 := by
  have hn : (UInt64.ofNat n).toNat = n := UInt64.toNat_ofNat_of_lt' (show n < 2 ^ 64 by omega)
  have hlt : UInt64.ofNat n < 31 := by
    rw [UInt64.lt_iff_toNat_lt, hn]
    exact h
  refine ⟨(1 : UInt64) <<< UInt64.ofNat n, if_pos hlt, ?_⟩
  rw [ne_eq, ← UInt64.toNat_inj, UInt64.toNat_shiftLeft, hn, Nat.mod_eq_of_lt (show n < 64 by omega)]
  show ¬ 1 <<< n % 2 ^ 64 = 0
  rw [Nat.one_shiftLeft, Nat.mod_eq_of_lt (Nat.pow_lt_pow_right (by decide) (by omega))]
  exact Nat.pos_iff_ne_zero.mp (Nat.two_pow_pos n)

/-- A round of the throughput test needs octets in its messages; it is one of the first 31. -/
theorem thruputRound_isSome_iff {p : Params} {numClients : UInt64} {elapsed : UInt64 → UInt64} {msglen : UInt64} {iter : ℕ}
    (hclients : numClients ≠ 0) (hpos : 1 ≤ iter) (hlt : iter < 32) (htime : ∀ i, elapsed i ≠ 0) :
    (thruputRound p numClients elapsed msglen (.ofNat iter)).isSome ↔ msglen.toUInt32 ≠ 0 := by
  have hsub : UInt64.ofNat iter - 1 = .ofNat (iter - 1) := (UInt64.ofNat_sub (b := 1) hpos).symm
  obtain ⟨d, hd, hd0⟩ := shlOne_of_lt (show iter - 1 < 31 by omega)
  have hcnt : divUll p.thruputTransf.toUInt64 d = some (p.thruputTransf.toUInt64 / d) := if_neg hd0
  rw [thruputRound, hsub, hd]
  show ((divUll _ d).bind _).isSome ↔ _
  rw [hcnt, ← @yields_isSome_iff msglen.toUInt32]
  show ((yields (asInt msglen.toUInt32)).bind _).isSome ↔ _
  cases hyields : yields (asInt msglen.toUInt32) with
  | none => simp
  | some y =>
    simp [divUll, htime, hclients]

/-! ## The clients -/

/-- At least one client is created. -/
theorem createClients_ne_zero {p : Params} (h : p.reqClients ≠ 0) (numClients : UInt64) :
    ∃ n, createClients p numClients = some n ∧ n ≠ 0 := by
  have hreq := p.reqClients.toNat_lt
  have hstep : ∀ n : UInt64, True → decide (n < p.reqClients.toUInt64) = true →
      ∃ n', some (n + 1) = some n' ∧ True ∧ p.reqClients.toNat - n'.toNat < p.reqClients.toNat - n.toNat := by
    intro n _ hn
    have hlt : n.toNat < p.reqClients.toNat := by simpa [UInt64.lt_iff_toNat_lt] using hn
    refine ⟨n + 1, rfl, trivial, ?_⟩
    rw [UInt64.toNat_add]
    show p.reqClients.toNat - (n.toNat + 1) % 2 ^ 64 < _
    omega
  obtain ⟨n, hn, -, hstop⟩ := whileLoop_total (fun _ => True) (fun n : UInt64 => p.reqClients.toNat - n.toNat) hstep trivial
    (show p.reqClients.toNat - numClients.toNat < p.reqClients.toNat + 1 by omega)
  refine ⟨n, hn, ?_⟩
  rintro rfl
  rw [decide_eq_false_iff_not, UInt64.lt_iff_toNat_lt, UInt32.toNat_toUInt64] at hstop
  exact h (UInt32.toNat_inj.mp (Nat.eq_zero_of_not_pos hstop))

/-! ## What the options allow -/

/-- What options leave: lengths by default or one length, and at least one client. -/
structure Params.Sane (p : Params) : Prop where
  lengths : p.firstMsglen = p.lastMsglen ∨ p.firstMsglen = defaultMsglen ∧ p.lastMsglen = tipcMaxUserMsgSize
  clients : p.reqClients ≠ 0

theorem Params.Sane.option {p p' : Params} {o : Opt} (h : p.Sane) (ho : p.option o = some p') : p'.Sane := by
  cases o with
  | l optarg | t optarg =>
    obtain rfl := Option.some.inj ho
    exact ⟨h.lengths, h.clients⟩
  | m optarg =>
    obtain rfl := Option.some.inj ho
    exact ⟨.inl rfl, h.clients⟩
  | c optarg =>
    rw [Params.option] at ho
    split at ho
    · nomatch ho
    next hne =>
      obtain rfl := Option.some.inj ho
      exact ⟨h.lengths, hne⟩

theorem sane_of_options {opts : List Opt} {p : Params} (h : Params.ofOptions opts = some p) : p.Sane := by
  have hall : ∀ (opts : List Opt) (q : Params), q.Sane → opts.foldlM Params.option q = some p → p.Sane := by
    intro opts
    induction opts with
    | nil =>
      rintro q hq ⟨⟩
      exact hq
    | cons o opts ih =>
      intro q hq hfold
      rw [List.foldlM_cons] at hfold
      obtain ⟨q', hq', hrest⟩ := Option.bind_eq_some_iff.mp hfold
      exact ih q' (hq.option hq') hrest
  exact hall opts .default ⟨.inr ⟨rfl, rfl⟩, by decide⟩ h

theorem Params.Sane.forPeer {p : Params} (h : p.Sane) (remote : Bool) : (p.forPeer remote).Sane := by
  cases remote
  · exact h
  · exact ⟨h.lengths, h.clients⟩

/-- The number of lengths. -/
def Params.sizes (p : Params) : ℕ := if p.firstMsglen = p.lastMsglen then 1 else 6

theorem Params.sizes_bounds (p : Params) : 1 ≤ p.sizes ∧ p.sizes ≤ 6 := by
  rw [Params.sizes]
  split <;> decide

/-- The lengths of the measurement loops, none of which is 0. -/
theorem Params.Sane.visits {p : Params} (h : p.Sane) (hne : p.firstMsglen ≠ 0) :
    ∃ lens, Visits p.lastMsglen.toUInt64 p.firstMsglen.toUInt64 lens ∧ lens.length = p.sizes ∧
      ∀ len ∈ lens, len.toUInt32 ≠ 0 := by
  rcases h.lengths with heq | ⟨hfirst, hlast⟩
  · refine ⟨[p.firstMsglen.toUInt64], ⟨rfl, ?_, ?_⟩, (if_pos heq).symm, ?_⟩
    · rw [heq]
      exact UInt64.le_refl _
    · have hlt := p.firstMsglen.toNat_lt
      have hpos := Nat.pos_of_ne_zero fun h0 => hne (UInt32.toNat_inj.mp h0)
      rw [Visits, ← heq, UInt64.not_le, UInt64.lt_iff_toNat_lt, UInt64.toNat_mul, UInt32.toNat_toUInt64]
      show p.firstMsglen.toNat < p.firstMsglen.toNat * 4 % 2 ^ 64
      omega
    · intro len hlen
      rw [List.mem_singleton.mp hlen]
      simpa using hne
  · rw [Params.sizes, hfirst, hlast]
    refine ⟨[64, 256, 1024, 4096, 16384, 65536], ?_, rfl, by simp⟩
    simp only [Visits]
    decide

/-! ## When the arithmetic is defined -/

section
variable {p : Params} {elapsed : UInt64 → UInt64} {numClients : UInt64}

/-- The latency test needs a message in each round. -/
theorem Params.Sane.latency_iff (h : p.Sane) (hne : p.firstMsglen ≠ 0) :
    (∃ fuel, (measureLoop p (latencyRound p elapsed) fuel).isSome) ↔ p.sizes ≤ p.latencyTransf.toNat := by
  obtain ⟨lens, hvisits, hlen, hlens⟩ := h.visits hne
  obtain ⟨hpos, hsmall⟩ := p.sizes_bounds
  have hrounds : ∀ k (hk : k < lens.length),
      (latencyRound p elapsed lens[k] (.ofNat (1 + k))).isSome ↔ 1 + k ≤ p.latencyTransf.toNat := by
    intro k hk
    rw [latencyRound_isSome_iff (by omega) (by omega)]
    exact and_iff_right (hlens _ (List.getElem_mem hk))
  rw [measureLoop_isSome_iff hvisits, show (1 : UInt64) = .ofNat 1 from rfl, allDefined_iff]
  constructor
  · intro hall
    have hk : p.sizes - 1 < lens.length := by omega
    have hlast := (hrounds (p.sizes - 1) hk).mp (hall _ hk)
    omega
  · intro hle k hk
    exact (hrounds k hk).mpr (by omega)

/-- The throughput test does not. -/
theorem Params.Sane.thruput_isSome (h : p.Sane) (hne : p.firstMsglen ≠ 0) (hclients : numClients ≠ 0)
    (htime : ∀ i, elapsed i ≠ 0) : ∃ fuel, (measureLoop p (thruputRound p numClients elapsed) fuel).isSome := by
  obtain ⟨lens, hvisits, hlen, hlens⟩ := h.visits hne
  obtain ⟨hpos, hsmall⟩ := p.sizes_bounds
  rw [measureLoop_isSome_iff hvisits, show (1 : UInt64) = .ofNat 1 from rfl, allDefined_iff]
  intro k hk
  exact (thruputRound_isSome_iff hclients (by omega) (by omega) htime).mpr (hlens _ (List.getElem_mem hk))

/-- A test with messages of no octets is not defined. -/
theorem Params.Sane.zero_length (h : p.Sane) (h0 : p.firstMsglen = 0) (fuel : ℕ) :
    measureLoop p (latencyRound p elapsed) fuel = none ∧
      (numClients ≠ 0 → (∀ i, elapsed i ≠ 0) → measureLoop p (thruputRound p numClients elapsed) fuel = none) := by
  have hle : p.firstMsglen.toUInt64 ≤ p.lastMsglen.toUInt64 := by
    rcases h.lengths with heq | ⟨hfirst, -⟩
    · rw [heq]
      exact UInt64.le_refl _
    · rw [hfirst] at h0
      exact absurd h0 (by decide)
  have hzero : ¬ p.firstMsglen.toUInt64.toUInt32 ≠ 0 := by simpa using h0
  constructor
  · apply measureLoop_eq_none hle
    rw [← Option.not_isSome_iff_eq_none, show (1 : UInt64) = .ofNat 1 from rfl,
      latencyRound_isSome_iff (by decide) (by decide)]
    exact fun hround => hzero hround.1
  · intro hclients htime
    apply measureLoop_eq_none hle
    rw [← Option.not_isSome_iff_eq_none, show (1 : UInt64) = .ofNat 1 from rfl,
      thruputRound_isSome_iff hclients (by decide) (by decide) htime]
    exact hzero

end

/-- Both tests end where they are run. -/
theorem measure_isSome_iff (p : Params) (latencyTimes thruputTimes : UInt64 → UInt64) (fuel : ℕ) :
    (measure p latencyTimes thruputTimes fuel).isSome ↔
      (p.latencyTransf = 0 ∨ (measureLoop p (latencyRound p latencyTimes) fuel).isSome) ∧
      (p.thruputTransf = 0 ∨ ∃ n, createClients p (if p.latencyTransf = 0 then 0 else 1) = some n ∧
        (measureLoop p (thruputRound p n thruputTimes) fuel).isSome) := by
  have hlatency : (latencyTest p latencyTimes fuel).isSome ↔
      p.latencyTransf = 0 ∨ (measureLoop p (latencyRound p latencyTimes) fuel).isSome := by
    rw [latencyTest]
    by_cases h0 : p.latencyTransf = 0 <;> simp [h0]
  have hthruput : (thruputTest p thruputTimes fuel).isSome ↔
      p.thruputTransf = 0 ∨ ∃ n, createClients p (if p.latencyTransf = 0 then 0 else 1) = some n ∧
        (measureLoop p (thruputRound p n thruputTimes) fuel).isSome := by
    rw [thruputTest]
    by_cases h0 : p.thruputTransf = 0
    · simp [h0]
    · rw [if_neg h0]
      cases createClients p (if p.latencyTransf = 0 then 0 else 1) <;> simp [h0]
  rw [← hlatency, ← hthruput, measure]
  cases latencyTest p latencyTimes fuel <;> simp

/-- More rounds do not make a loop that has ended fail. -/
theorem measureLoop_isSome_mono {α : Type} {p : Params} {round : UInt64 → UInt64 → Option α} {m n : ℕ} (hle : m ≤ n)
    (h : (measureLoop p round m).isSome) : (measureLoop p round n).isSome := by
  obtain ⟨t, ht⟩ := Option.isSome_iff_exists.mp h
  rw [measureLoop, whileLoop_mono ht hle]
  rfl

/-- **When the arithmetic is defined.** For options that are accepted, a server on this or another node, and positive times:
    both measurement loops end, and nothing is divided by zero, if and only if both tests are left out, or the messages
    have a length and the latency test, unless it is left out, has a message for each length. -/
theorem measure_defined_iff {opts : List Opt} {p₀ : Params} (hopts : Params.ofOptions opts = some p₀) (remote : Bool)
    {latencyTimes thruputTimes : UInt64 → UInt64} (htime : ∀ i, thruputTimes i ≠ 0) :
    let p := p₀.forPeer remote
    (∃ fuel, (measure p latencyTimes thruputTimes fuel).isSome) ↔
      (p.latencyTransf = 0 ∧ p.thruputTransf = 0) ∨
        p.firstMsglen ≠ 0 ∧ (p.latencyTransf = 0 ∨ p.sizes ≤ p.latencyTransf.toNat) := by
  intro p
  have hsane : p.Sane := (sane_of_options hopts).forPeer remote
  obtain ⟨n, hn, hn0⟩ := createClients_ne_zero hsane.clients (if p.latencyTransf = 0 then 0 else 1)
  have hboth : ∀ fuel, (measure p latencyTimes thruputTimes fuel).isSome ↔
      (p.latencyTransf = 0 ∨ (measureLoop p (latencyRound p latencyTimes) fuel).isSome) ∧
      (p.thruputTransf = 0 ∨ (measureLoop p (thruputRound p n thruputTimes) fuel).isSome) := by
    intro fuel
    rw [measure_isSome_iff, hn]
    simp
  simp only [hboth]
  by_cases h0 : p.firstMsglen = 0
  · have hlatency := fun fuel => (@Params.Sane.zero_length _ latencyTimes n hsane h0 fuel).1
    have hthruput := fun fuel => (@Params.Sane.zero_length _ thruputTimes n hsane h0 fuel).2 hn0 htime
    simp [hlatency, hthruput, h0]
  · obtain ⟨k, hk⟩ := hsane.thruput_isSome h0 hn0 htime
    rw [← @Params.Sane.latency_iff _ latencyTimes hsane h0]
    constructor
    · rintro ⟨fuel, h | h, -⟩
      · exact .inr ⟨h0, .inl h⟩
      · exact .inr ⟨h0, .inr ⟨fuel, h⟩⟩
    · rintro (⟨hl, ht⟩ | ⟨-, hl | ⟨fuel, hl⟩⟩)
      · exact ⟨0, .inl hl, .inl ht⟩
      · exact ⟨k, .inl hl, .inr hk⟩
      · exact ⟨max fuel k, .inr (measureLoop_isSome_mono (Nat.le_max_left _ _) hl),
          .inr (measureLoop_isSome_mono (Nat.le_max_right _ _) hk)⟩

/-- A server on this node, and the options by default. -/
theorem measure_defined_iff_default : (∃ fuel, (measure .default (fun _ => 1) (fun _ => 1) fuel).isSome) ↔
    (Params.default.latencyTransf = 0 ∧ Params.default.thruputTransf = 0) ∨
      Params.default.firstMsglen ≠ 0 ∧
        (Params.default.latencyTransf = 0 ∨ Params.default.sizes ≤ Params.default.latencyTransf.toNat) :=
  @measure_defined_iff [] .default rfl false (fun _ => 1) (fun _ => 1) fun _ => by decide

/-- **A division by zero:** with `-l5` (the number is read only where it is attached), the sixth round of the latency test has no message. -/
theorem measure_undefined : ¬ ∀ (opts : List Opt) (p : Params), Params.ofOptions opts = some p → ∀ (remote : Bool)
    (latencyTimes thruputTimes : UInt64 → UInt64), (∀ i, latencyTimes i ≠ 0) → (∀ i, thruputTimes i ≠ 0) →
      ∃ fuel, (measure (p.forPeer remote) latencyTimes thruputTimes fuel).isSome := by
  intro h
  have hopts : Params.ofOptions [.l (some 5)] = some ⟨5, 0, 1, 64, 66000⟩ := by decide
  obtain ⟨fuel, hsome⟩ := h _ _ hopts false (fun _ => 1) (fun _ => 1) (fun _ => by decide) fun _ => by decide
  have hloop := ((measure_isSome_iff _ _ _ _).mp hsome).1.resolve_left (by decide)
  exact absurd ((@Params.Sane.latency_iff _ (fun _ => 1) ⟨.inr ⟨rfl, rfl⟩, by decide⟩ (by decide)).mp ⟨fuel, hloop⟩)
    (by decide)

end Benchmark
end Tipcutils
