import Mathlib.Data.List.Infix
import Mathlib.Order.BooleanAlgebra.Set

/-!
# `Scripts.Bearers` — the scripts that enable and disable bearers

`if-up.d/tipcutils` and `if-down.d/tipcutils` are run when an interface comes up or goes down, `init.d/tipcutils` when the
system starts or stops. Whether a bearer is enabled is asked with `grep -q "eth:$IFACE"` about the list that
`tipc-config -b` prints: the name is a pattern that may match a part of a line, and a dot in it matches everything.

What the scripts are for is said by **`Wanted`**: of the interfaces in `TIPC_INTERFACES`, those are bearers that have been
announced while the module was loaded and accepted by `tipc-config -be`, and have not been taken down since. An interface is
announced when it comes up, and by every start of TIPC if `ifconfig -a` lists it, which it does whether it is up or down.
**`bearers_iff`**: the scripts do this for every sequence of events if and only if no name in `TIPC_INTERFACES` is found
in the line of another one. (`ifDown` is right in any case: it disables by name.)

The names contain none of the characters, other than the dot, that mean something in a pattern. The lines that
`tipc-config -b` prints are the names of the bearers (its heading contains no `eth:`), and it does not fail where the module
is loaded. Whether `tipc-config -be` and `-bd` accept an interface is a part of the event, one answer for each interface;
where the module is not loaded, `-be` fails. Not modelled: what is printed, the exit status, and the domain that is passed
on to `tipc-config -be`.
-/

namespace Tipcutils
namespace Scripts

/-! ## grep -/

/-- A pattern matches at the beginning of a text. -/
def matchesHere : List Char → List Char → Bool
  | [], _ => true
  | _ :: _, [] => false
  | p :: ps, c :: cs => (p = '.' || p = c) && matchesHere ps cs

/-- `grep -q`: a pattern matches somewhere in a line. -/
def grepLine (pat line : List Char) : Bool := line.tails.any (matchesHere pat)

theorem matchesHere_self (pat : List Char) : matchesHere pat pat = true := by
  induction pat with
  | nil => rfl
  | cons p ps ih =>
    rw [matchesHere, ih]
    simp

theorem grepLine_self (pat : List Char) : grepLine pat pat = true :=
  List.any_eq_true.mpr ⟨pat, (List.mem_tails _ _).mpr (List.suffix_refl pat), matchesHere_self pat⟩

/-! ## The scripts -/

/-- The name of an interface. -/
structure IfName where
  name : List Char
  ordinary : ∀ c ∈ name, c ∉ ['*', '[', ']', '^', '$', '\\']
deriving DecidableEq

/-- The name of the bearer on an interface, which is also the pattern that is looked for. -/
def IfName.bearer (i : IfName) : List Char := 'e' :: 't' :: 'h' :: ':' :: i.name

/-- What the scripts find: `tipc-config`, the kernel module, `/etc/default/tipcutils`, and the variables that it sets (if it
    can be read). -/
structure Conf where
  executable : Bool
  moduleInstalled : Bool
  installed : Bool
  tipcConfigured : String
  tipcInterfaces : List IfName
  tipcNetid : String

/-- The kernel: whether the module is loaded, and the bearers that are enabled. -/
structure State where
  loaded : Bool
  bearers : List IfName

/-- `$TIPCCONFIG -b|grep -q "eth:$IFACE"`. -/
def State.listed (s : State) (i : IfName) : Bool := s.bearers.any fun b => grepLine i.bearer b.bearer

/-- `$TIPCCONFIG -be="eth:$IFACE"`, which the module accepts or refuses. -/
def State.enable (accepts : Bool) (s : State) (i : IfName) : State :=
  if s.loaded ∧ accepts then { s with bearers := i :: s.bearers } else s

/-- `$TIPCCONFIG -bd="eth:$IFACE"`, which the module accepts or refuses. -/
def State.disable (accepts : Bool) (s : State) (i : IfName) : State :=
  if accepts then { s with bearers := s.bearers.filter (· ≠ i) } else s

variable (c : Conf)

def ifUp (accepts : Bool) (i : IfName) (s : State) : State :=
  if ¬ c.executable then s
  else if ¬ c.installed then s
  else if c.tipcConfigured ≠ "true" then s
  else if i ∉ c.tipcInterfaces then s
  else if s.listed i then s
  else s.enable accepts i

def ifDown (accepts : Bool) (i : IfName) (s : State) : State :=
  if ¬ c.executable then s
  else if ¬ c.installed then s
  else if c.tipcConfigured ≠ "true" then s
  else if s.listed i then s.disable accepts i
  else s

/-- `existing` is what `ifconfig -a` lists. -/
def startInterfaces (existing : List IfName) (accepts : IfName → Bool) (s : State) : State :=
  existing.foldl (fun s i => c.tipcInterfaces.foldl (fun s t => if t = i then ifUp c (accepts i) i s else s) s) s

/-- `modprobe` and `configures` say whether `modprobe` and the calls of `tipc-config` behind it succeed. -/
def startTipc (existing : List IfName) (accepts : IfName → Bool) (modprobe configures : Bool) (s : State) : State :=
  if c.tipcNetid ≠ "" then
    if ¬ modprobe then s
    else if ¬ configures then { s with loaded := true }
    else startInterfaces c existing accepts { s with loaded := true }
  else if ¬ configures then s
  else startInterfaces c existing accepts s

def stopTipc (rmmod : Bool) (s : State) : State := if s.loaded ∧ rmmod then ⟨false, []⟩ else s

inductive Event where
  | up (i : IfName) (accepts : Bool)
  | down (i : IfName) (accepts : Bool)
  | start (existing : List IfName) (accepts : IfName → Bool) (modprobe configures : Bool)
  | stop (rmmod : Bool)
  | restart (rmmod : Bool) (existing : List IfName) (accepts : IfName → Bool) (modprobe configures : Bool)

/-- What `init.d/tipcutils` does if it does not leave at once. -/
def initd (s s' : State) : State :=
  if ¬ c.moduleInstalled then s else if ¬ c.executable then s else if ¬ c.installed then s else s'

def step (s : State) : Event → State
  | .up i accepts => ifUp c accepts i s
  | .down i accepts => ifDown c accepts i s
  | .start existing accepts modprobe configures =>
    initd c s (if c.tipcConfigured ≠ "true" then s else startTipc c existing accepts modprobe configures s)
  | .stop rmmod => initd c s (stopTipc rmmod s)
  | .restart rmmod existing accepts modprobe configures =>
    -- `TIPC_CONFIGURED` is not looked at here, but by `ifUp`
    initd c s (startTipc c existing accepts modprobe configures (stopTipc rmmod s))

/-! ## What the scripts are for -/

/-- The interfaces that are to be bearers. -/
structure Wanted where
  loaded : Bool
  set : Set IfName

/-- The scripts have what they need, and are told to use TIPC. -/
def Conf.Usable : Prop := c.executable = true ∧ c.installed = true ∧ c.tipcConfigured = "true"

instance : Decidable c.Usable := inferInstanceAs (Decidable (_ ∧ _))

/-- The interface, if it is accepted. -/
def accepted (accepts : Bool) (i : IfName) : Set IfName := {j | j = i ∧ accepts = true}

/-- The interfaces in `is` are announced and accepted. -/
def Wanted.up (is : Set IfName) (w : Wanted) : Wanted :=
  if c.Usable ∧ w.loaded = true then { w with set := w.set ∪ is ∩ {i | i ∈ c.tipcInterfaces} } else w

/-- The interface is taken down. -/
def Wanted.down (accepts : Bool) (i : IfName) (w : Wanted) : Wanted :=
  if c.Usable ∧ accepts = true then { w with set := w.set \ {i} } else w

/-- TIPC is started, which loads the module if `TIPC_NETID` is set and announces all interfaces that there are. -/
def Wanted.start (existing : List IfName) (accepts : IfName → Bool) (modprobe configures : Bool) (w : Wanted) : Wanted :=
  if c.tipcNetid ≠ "" ∧ modprobe = false then w
  else
    let w' : Wanted := if c.tipcNetid ≠ "" then { w with loaded := true } else w
    if configures then w'.up c {i | i ∈ existing ∧ accepts i = true} else w'

def Wanted.stop (rmmod : Bool) (w : Wanted) : Wanted := if w.loaded ∧ rmmod then ⟨false, ∅⟩ else w

/-- The init script has what it needs. -/
def Conf.Startable : Prop := c.moduleInstalled = true ∧ c.executable = true ∧ c.installed = true

instance : Decidable c.Startable := inferInstanceAs (Decidable (_ ∧ _))

def Wanted.step (w : Wanted) : Event → Wanted
  | .up i accepts => w.up c (accepted accepts i)
  | .down i accepts => w.down c accepts i
  | .start existing accepts modprobe configures =>
    if c.Startable ∧ c.tipcConfigured = "true" then w.start c existing accepts modprobe configures else w
  | .stop rmmod => if c.Startable then w.stop rmmod else w
  | .restart rmmod existing accepts modprobe configures =>
    if c.Startable then (w.stop rmmod).start c existing accepts modprobe configures else w

/-- No configured name is found in the line of another one. -/
def Conf.Apart : Prop :=
  ∀ i ∈ c.tipcInterfaces, ∀ b ∈ c.tipcInterfaces, grepLine i.bearer b.bearer = true → i = b

/-! ## Every script does what it is for -/

/-- The kernel is as it is wanted; what is not configured is not enabled. -/
structure Refines (s : State) (w : Wanted) : Prop where
  loaded : w.loaded = s.loaded
  set : w.set = {i | i ∈ s.bearers}
  configured : ∀ i ∈ s.bearers, i ∈ c.tipcInterfaces

variable {c} {s : State} {w : Wanted} {i : IfName}

/-- A bearer is found where it is listed. -/
theorem listed_of_mem (h : i ∈ s.bearers) : s.listed i = true :=
  List.any_eq_true.mpr ⟨i, h, grepLine_self i.bearer⟩

/-- Where the names are apart, nothing else is found. -/
theorem Refines.listed_iff (h : Refines c s w) (hapart : c.Apart) (hi : i ∈ c.tipcInterfaces) :
    s.listed i = true ↔ i ∈ s.bearers := by
  constructor
  · intro hlisted
    obtain ⟨b, hb, hgrep⟩ := List.any_eq_true.mp hlisted
    rw [hapart i hi b (h.configured b hb) hgrep]
    exact hb
  · exact listed_of_mem

theorem ifUp_of_usable (huse : c.Usable) (accepts : Bool) :
    ifUp c accepts i s = if i ∈ c.tipcInterfaces then if s.listed i then s else s.enable accepts i else s := by
  obtain ⟨hexec, hinst, hconf⟩ := huse
  simp [ifUp, hexec, hinst, hconf]

theorem ifUp_of_not_usable (huse : ¬ c.Usable) (accepts : Bool) : ifUp c accepts i s = s := by
  unfold ifUp
  split_ifs with hexec hinst hconf
  all_goals first | rfl | exact absurd ⟨hexec, hinst, not_not.mp hconf⟩ huse

theorem ifDown_of_usable (huse : c.Usable) (accepts : Bool) :
    ifDown c accepts i s = if s.listed i then s.disable accepts i else s := by
  obtain ⟨hexec, hinst, hconf⟩ := huse
  simp [ifDown, hexec, hinst, hconf]

theorem ifDown_of_not_usable (huse : ¬ c.Usable) (accepts : Bool) : ifDown c accepts i s = s := by
  unfold ifDown
  split_ifs with hexec hinst hconf
  all_goals first | rfl | exact absurd ⟨hexec, hinst, not_not.mp hconf⟩ huse

/-! ### What is wanted -/

theorem accepted_true (i : IfName) : accepted true i = {i} := by
  ext j
  simp [accepted]

theorem accepted_false (i : IfName) : accepted false i = ∅ := by
  ext j
  simp [accepted]

theorem Wanted.up_of (huse : c.Usable) (hloaded : w.loaded = true) (is : Set IfName) :
    w.up c is = { w with set := w.set ∪ is ∩ {i | i ∈ c.tipcInterfaces} } := if_pos ⟨huse, hloaded⟩

theorem Wanted.up_of_not (h : ¬ (c.Usable ∧ w.loaded = true)) (is : Set IfName) : w.up c is = w := if_neg h

/-- Interfaces that come up one after the other come up. -/
theorem Wanted.up_up (is js : Set IfName) : (w.up c is).up c js = w.up c (is ∪ js) := by
  by_cases h : c.Usable ∧ w.loaded = true
  · have hup := @up_of c ⟨w.loaded, w.set ∪ is ∩ {i | i ∈ c.tipcInterfaces}⟩ h.1 h.2 js
    rw [up_of h.1 h.2, hup, up_of h.1 h.2, Set.union_assoc, ← Set.union_inter_distrib_right]
  · rw [up_of_not h, up_of_not h, up_of_not h]

/-- Nothing is wanted of interfaces that are not configured. -/
theorem Wanted.up_of_disjoint {is : Set IfName} (h : is ∩ {i | i ∈ c.tipcInterfaces} = ∅) : w.up c is = w := by
  by_cases hup : c.Usable ∧ w.loaded = true
  · rw [up_of hup.1 hup.2, h, Set.union_empty]
  · rw [up_of_not hup]

theorem Wanted.up_refused (w : Wanted) (i : IfName) : w.up c (accepted false i) = w :=
  up_of_disjoint (by rw [accepted_false, Set.empty_inter])

/-! ### One script -/

namespace Refines

variable (h : Refines c s w) (hapart : c.Usable → c.Apart)
include h

theorem enable (hconf : i ∈ c.tipcInterfaces) (huse : c.Usable) : Refines c (s.enable true i) (w.up c {i}) := by
  by_cases hloaded : w.loaded = true
  · rw [Wanted.up_of huse hloaded, State.enable, if_pos ⟨h.loaded ▸ hloaded, rfl⟩]
    refine ⟨h.loaded, ?_, List.forall_mem_cons.mpr ⟨hconf, h.configured⟩⟩
    ext j
    simp only [h.set, Set.mem_union, Set.mem_inter_iff, Set.mem_ofPred_eq, Set.mem_singleton_iff, List.mem_cons]
    constructor
    · rintro (hj | ⟨hj, -⟩)
      · exact .inr hj
      · exact .inl hj
    · rintro (rfl | hj)
      · exact .inr ⟨rfl, hconf⟩
      · exact .inl hj
  · rw [Wanted.up_of_not fun hup => hloaded hup.2, State.enable, if_neg fun hboth => hloaded (h.loaded ▸ hboth.1)]
    exact h

/-- Nothing more is wanted of an interface that is a bearer already. -/
theorem up_of_mem (hmem : i ∈ s.bearers) : w.up c {i} = w := by
  by_cases hup : c.Usable ∧ w.loaded = true
  · have hsub : {i} ∩ {i | i ∈ c.tipcInterfaces} ⊆ w.set := by
      intro j hj
      rw [h.set, hj.1]
      exact hmem
    rw [Wanted.up_of hup.1 hup.2, Set.union_eq_left.mpr hsub]
  · exact Wanted.up_of_not hup _

include hapart in
theorem ifUp (accepts : Bool) (i : IfName) : Refines c (ifUp c accepts i s) (w.up c (accepted accepts i)) := by
  by_cases huse : c.Usable
  · rw [ifUp_of_usable huse]
    cases accepts with
    | false =>
      rw [Wanted.up_refused]
      simpa [State.enable] using h
    | true =>
      rw [accepted_true]
      split_ifs with hconf hlisted
      · rw [h.up_of_mem ((h.listed_iff (hapart huse) hconf).mp hlisted)]
        exact h
      · exact h.enable hconf huse
      · rw [Wanted.up_of_disjoint (Set.singleton_inter_eq_empty.mpr hconf)]
        exact h
  · rw [ifUp_of_not_usable huse, Wanted.up_of_not fun hup => huse hup.1]
    exact h

theorem disable (i : IfName) : Refines c (s.disable true i) { w with set := w.set \ {i} } where
  loaded := h.loaded
  set := by
    ext j
    simp [h.set, State.disable]
  configured := fun j hj => h.configured j (List.mem_filter.mp hj).1

/-- Whatever else is found, an interface is disabled by its name. -/
theorem ifDown (accepts : Bool) (i : IfName) : Refines c (ifDown c accepts i s) (w.down c accepts i) := by
  by_cases huse : c.Usable
  · rw [ifDown_of_usable huse]
    cases accepts with
    | false => simpa [State.disable, Wanted.down] using h
    | true =>
      have hdown : w.down c true i = { w with set := w.set \ {i} } := if_pos ⟨huse, rfl⟩
      rw [hdown]
      split_ifs with hlisted
      · exact h.disable i
      · have hnot : i ∉ w.set := by
          rw [h.set]
          exact fun hmem => hlisted (listed_of_mem hmem)
        rw [Set.sdiff_singleton_eq_self hnot]
        exact h
  · rw [ifDown_of_not_usable huse, Wanted.down, if_neg fun hboth => huse hboth.1]
    exact h

include hapart in
/-- The inner loop of `start_interfaces` runs the script for an interface that is configured. -/
theorem startInterface (accepts : Bool) (i : IfName) (ts : List IfName) :
    Refines c (ts.foldl (fun s t => if t = i then Scripts.ifUp c accepts i s else s) s)
      (if i ∈ ts then w.up c (accepted accepts i) else w) := by
  induction ts generalizing s w with
  | nil => exact h
  | cons t ts ih =>
    rw [List.foldl_cons]
    by_cases heq : t = i
    · subst heq
      have hrec := ih (h.ifUp hapart accepts t)
      rw [Wanted.up_up, Set.union_self, ite_self] at hrec
      simpa using hrec
    · have hrec := ih h
      have hmem : i ∈ t :: ts ↔ i ∈ ts := by simp [Ne.symm heq]
      simpa [heq, hmem] using hrec

include hapart in
theorem startInterfaces (existing : List IfName) (accepts : IfName → Bool) :
    Refines c (startInterfaces c existing accepts s) (w.up c {i | i ∈ existing ∧ accepts i = true}) := by
  induction existing generalizing s w with
  | nil => simpa [Scripts.startInterfaces, Wanted.up_of_disjoint] using h
  | cons i existing ih =>
    have hone := h.startInterface hapart (accepts i) i c.tipcInterfaces
    have hone' : Refines c (c.tipcInterfaces.foldl (fun s t => if t = i then Scripts.ifUp c (accepts i) i s else s) s)
        (w.up c (accepted (accepts i) i)) := by
      split_ifs at hone with hi
      · exact hone
      · have hnone : accepted (accepts i) i ∩ {i | i ∈ c.tipcInterfaces} = ∅ := by
          ext j
          refine iff_of_false ?_ (Set.notMem_empty j)
          rintro ⟨⟨rfl, -⟩, hj⟩
          exact hi hj
        rwa [Wanted.up_of_disjoint hnone]
    have hrec := ih hone'
    rw [Wanted.up_up] at hrec
    have hset : ({j | j ∈ i :: existing ∧ accepts j = true} : Set IfName) =
        accepted (accepts i) i ∪ {j | j ∈ existing ∧ accepts j = true} := by
      ext j
      simp only [Set.mem_ofPred_eq, List.mem_cons, Set.mem_union, accepted]
      constructor
      · rintro ⟨rfl | hj, hacc⟩
        · exact .inl ⟨rfl, hacc⟩
        · exact .inr ⟨hj, hacc⟩
      · rintro (⟨rfl, hacc⟩ | ⟨hj, hacc⟩)
        · exact ⟨.inl rfl, hacc⟩
        · exact ⟨.inr hj, hacc⟩
    rw [hset]
    exact hrec

theorem load : Refines c { s with loaded := true } { w with loaded := true } := ⟨rfl, h.set, h.configured⟩

theorem stop (rmmod : Bool) : Refines c (stopTipc rmmod s) (w.stop rmmod) := by
  rw [stopTipc, Wanted.stop, h.loaded]
  split_ifs
  · exact ⟨rfl, by simp, by simp⟩
  · exact h

include hapart in
theorem start (existing : List IfName) (accepts : IfName → Bool) (modprobe configures : Bool) :
    Refines c (startTipc c existing accepts modprobe configures s) (w.start c existing accepts modprobe configures) := by
  unfold startTipc Wanted.start
  by_cases hnet : c.tipcNetid = ""
  · cases configures
    · simpa [hnet] using h
    · simpa [hnet] using h.startInterfaces hapart existing accepts
  · cases modprobe
    · simpa [hnet] using h
    · cases configures
      · simpa [hnet] using h.load
      · simpa [hnet] using h.load.startInterfaces hapart existing accepts

theorem initd {s' : State} {w' : Wanted} (h' : Refines c s' w') :
    Refines c (initd c s s') (if c.Startable then w' else w) := by
  by_cases hstart : c.Startable
  · rw [if_pos hstart]
    obtain ⟨hmod, hexec, hinst⟩ := hstart
    simpa [Scripts.initd, hmod, hexec, hinst] using h'
  · rw [if_neg hstart]
    unfold Scripts.initd
    split_ifs with hmod hexec hinst
    all_goals first | exact h | exact absurd ⟨hmod, hexec, hinst⟩ hstart

include hapart in
/-- One event. -/
theorem step (e : Event) : Refines c (step c s e) (w.step c e) := by
  cases e with
  | up i accepts => exact h.ifUp hapart accepts i
  | down i accepts => exact h.ifDown accepts i
  | start existing accepts modprobe configures =>
    show Refines c (Scripts.initd c s _) (if _ then _ else _)
    by_cases hconf : c.tipcConfigured = "true"
    · simpa [hconf] using h.initd (h.start hapart existing accepts modprobe configures)
    · simpa [hconf] using h.initd h
  | stop rmmod => exact h.initd (h.stop rmmod)
  | restart rmmod existing accepts modprobe configures =>
    exact h.initd ((h.stop rmmod).start hapart existing accepts modprobe configures)

include hapart in
theorem run (evs : List Event) : Refines c (evs.foldl (Scripts.step c) s) (evs.foldl (Wanted.step c) w) := by
  induction evs generalizing s w with
  | nil => exact h
  | cons e evs ih => exact ih (h.step hapart e)

end Refines

theorem refines_start (loaded : Bool) : Refines c ⟨loaded, []⟩ ⟨loaded, ∅⟩ := ⟨rfl, by simp, by simp⟩

/-- A name that is found in the line of a bearer does not come up. -/
theorem ifUp_of_found {b : IfName} (huse : c.Usable) (hb : b ∈ c.tipcInterfaces)
    (hgrep : grepLine i.bearer b.bearer = true) : (ifUp c true i (ifUp c true b ⟨true, []⟩)).bearers = [b] := by
  have hfirst : ifUp c true b ⟨true, []⟩ = ⟨true, [b]⟩ := by
    rw [ifUp_of_usable huse, if_pos hb]
    rfl
  have hlisted : State.listed ⟨true, [b]⟩ i = true := List.any_eq_true.mpr ⟨b, List.mem_singleton_self b, hgrep⟩
  rw [hfirst, ifUp_of_usable huse, hlisted]
  simp

/-- **The bearers.** In every sequence of events, from a kernel without bearers, the bearers that are enabled are those that
    are wanted, if and only if the scripts are not used or no configured name is found in the line of another one. -/
theorem bearers_iff (c : Conf) :
    (∀ (loaded : Bool) (evs : List Event),
        {i | i ∈ (evs.foldl (step c) ⟨loaded, []⟩).bearers} = (evs.foldl (Wanted.step c) ⟨loaded, ∅⟩).set) ↔
      (c.Usable → c.Apart) := by
  constructor
  · intro hall huse i hi b hb hgrep
    have hset := hall true [.up b true, .up i true]
    have hbearers : (ifUp c true i (ifUp c true b ⟨true, []⟩)).bearers = [b] := ifUp_of_found huse hb hgrep
    have hwanted : i ∈ ((Wanted.up c (accepted true b) ⟨true, ∅⟩).up c (accepted true i)).set := by
      rw [Wanted.up_up, @Wanted.up_of c ⟨true, ∅⟩ huse rfl]
      exact .inr ⟨.inr ⟨rfl, rfl⟩, hi⟩
    have hmem : i ∈ {j | j ∈ (ifUp c true i (ifUp c true b ⟨true, []⟩)).bearers} := by
      rw [show {j | j ∈ (ifUp c true i (ifUp c true b ⟨true, []⟩)).bearers} = _ from hset]
      exact hwanted
    rw [hbearers] at hmem
    exact List.mem_singleton.mp hmem
  · intro hapart loaded evs
    exact ((refines_start loaded).run hapart evs).set.symm

/-- `eth1` is found in the line of `eth10`, but not the other way round. -/
example : grepLine "eth:eth1".toList "eth:eth10".toList = true ∧ grepLine "eth:eth10".toList "eth:eth1".toList = false := by
  decide

end Scripts
end Tipcutils
