/-
# Which calls the diagram of calls draws

Calls are followed from each entry down to a number of levels, and every place of a call is looked
at once in the whole diagram: the first time that it is met.  How far the call is followed then
depends on the levels that are left at that time, so a place that is first met on the last level is
not followed, even if a shorter chain of calls leads to it.

To say when calls are lost, the run is written down as the log of its visits (`visits`): the places
in the order in which they are looked at, each with the levels that are left.  The diagram shows
exactly the visits that land on a function (`call_mem_messages_iff`), and `Grounded` says of each
visit which calls are looked at because of it, and because of which visit it is made itself.

Main statement: `drawsReach_iff`.  All calls within reach are drawn if and only if every function
within reach is followed, by a visit or as an entry, unless it lies on the last level; and calls of
one function at one place land on one participant.
-/
import Codemap.Diagram.Sequence
import Mathlib.Data.List.Basic

namespace Codemap.Diagram.Sequence

/-! ## 1. Calls within reach -/

/-- The functions of the given files. -/
def functions (files : List FileFacts) : List Callable := files.flatMap callables

/-- A call of the function `f` is the last of a chain of `k` calls: the first one is made by an
entry, and each lands on the function that makes the next one.  The last one lands on `g`. -/
inductive Chain (files : List FileFacts) : Nat → Callable → Call → Callable → Prop
  | first {e g : Callable} {c : Call} (he : e ∈ files.flatMap entries)
      (hc : c ∈ callsOf files e) (hg : resolve? (functions files) e.path c = some g) :
      Chain files 1 e c g
  | next {k : Nat} {f g h : Callable} {c d : Call} (hchain : Chain files k f c g)
      (hd : d ∈ callsOf files g) (hh : resolve? (functions files) g.path d = some h) :
      Chain files (k + 1) g d h

/-- The diagram has a message for the place of a call of `f`, from the participant of `f` to that of
`g`, and a line with this message. -/
def IsDrawn (files : List FileFacts) (depth : Nat) (f : Callable) (c : Call) (g : Callable) :
    Prop :=
  ∃ m ∈ messages files depth, m = .call (placeOf f c) f.participant g.participant ∧
    indent ++ m.line ∈ lines files depth

/-- Every call is drawn that is the last of a chain with fewer calls than there are levels. -/
def DrawsReach (files : List FileFacts) (depth : Nat) : Prop :=
  ∀ k f c g, Chain files k f c g → k < max depth 1 → IsDrawn files depth f c g

/-! ## 2. The log of a run -/

/-- A look at the place of a call, with the number of levels that are left for the calls of the
function on which it lands. -/
structure Visit where
  caller : Callable
  call : Call
  levels : Nat

namespace Visit

/-- The place that is looked at. -/
def place (v : Visit) : CallPlace := placeOf v.caller v.call

/-- The function on which the call lands. -/
def target? (files : List FileFacts) (v : Visit) : Option Callable :=
  resolve? (functions files) v.caller.path v.call

/-- The message that is drawn. -/
def message? (files : List FileFacts) (v : Visit) : Option Message :=
  (v.target? files).map fun g => .call v.place v.caller.participant g.participant

end Visit

/-- The log after a look at a call of `f`: `follow` follows the function on which it lands, with
the given number of levels left. -/
def lookAt (files : List FileFacts) (levels : Nat) (follow : Callable → List Visit → List Visit)
    (f : Callable) (log : List Visit) (c : Call) : List Visit :=
  if (log.map Visit.place).contains (placeOf f c) then log
  else
    match resolve? (functions files) f.path c with
    | none => ⟨f, c, levels⟩ :: log
    | some g => follow g (⟨f, c, levels⟩ :: log)

/-- The log, latest visit first, after the calls of a function have been followed down to a number
of levels. -/
def visitsFrom (files : List FileFacts) : Nat → Callable → List Visit → List Visit
  | 0, _, log => log
  | levels + 1, f, log =>
    (callsOf files f).foldl (lookAt files levels (visitsFrom files levels) f) log

/-- The log of the whole diagram, latest visit first. -/
def visits (files : List FileFacts) (depth : Nat) : List Visit :=
  (files.flatMap entries).foldl (fun log e => visitsFrom files (depth - 1) e log) []

/-- A log tells which places a run has seen, and which messages for calls it has drawn. -/
structure Logs (files : List FileFacts) (t : Trace) (log : List Visit) : Prop where
  seen : t.seen = log.map Visit.place
  call_mem : ∀ {p a b}, .call p a b ∈ t.messages ↔
    ∃ v ∈ log, v.message? files = some (.call p a b)

variable {files : List FileFacts} {t : Trace} {log log' : List Visit} {f g : Callable} {c : Call}
  {v : Visit} {n depth : Nat}

/-- Messages of other kinds do not matter for the log. -/
theorem Logs.add (h : Logs files t log) {m : Message} (hm : ∀ p a b, m ≠ .call p a b) :
    Logs files (t.add m) log where
  seen := h.seen
  call_mem := by
    intro p a b
    rw [← h.call_mem, Trace.add, List.mem_append, List.mem_singleton]
    exact or_iff_left (hm p a b).symm

/-- A visit that lands nowhere draws nothing. -/
theorem Logs.visit_none (h : Logs files t log) (hv : v.target? files = none) :
    Logs files { t with seen := v.place :: t.seen } (v :: log) where
  seen := by rw [List.map_cons, h.seen]
  call_mem := by
    intro p a b
    have hno : v.message? files ≠ some (.call p a b) := by simp [Visit.message?, hv]
    rw [h.call_mem, List.exists_mem_cons_iff]
    exact (or_iff_right hno).symm

/-- A visit that lands on a function draws its message. -/
theorem Logs.visit_some (h : Logs files t log) (hv : v.target? files = some g) :
    Logs files
      ({ t with seen := v.place :: t.seen }.add
        (.call v.place v.caller.participant g.participant)) (v :: log) where
  seen := by rw [List.map_cons, ← h.seen]; rfl
  call_mem := by
    intro p a b
    rw [Trace.add, List.mem_append, List.mem_singleton, List.exists_mem_cons_iff, h.call_mem,
      Visit.message?, hv, Option.map_some, Option.some.injEq, eq_comm (a := Message.call p a b),
      or_comm]

/-- **Following the calls of a function draws the visits of the log.**  The induction is on the
levels, and inside it on the calls of the function. -/
theorem Logs.follow (h : Logs files t log) (n : Nat) (f : Callable) :
    Logs files (follow files (functions files) n f f.participant t) (visitsFrom files n f log) := by
  induction n generalizing f t log with
  | zero => exact h
  | succ n ih =>
    rw [Sequence.follow, visitsFrom]
    induction callsOf files f generalizing t log with
    | nil => exact h
    | cons c calls ihc =>
      rw [List.foldl_cons, List.foldl_cons]
      refine ihc ?_
      simp only [h.seen, lookAt]
      by_cases hseen : (log.map Visit.place).contains (placeOf f c)
      · rw [if_pos hseen, if_pos hseen]
        exact h
      · rw [if_neg hseen, if_neg hseen, ← h.seen]
        cases hg : resolve? (functions files) f.path c with
        | none => exact h.visit_none (v := ⟨f, c, n⟩) hg
        | some g => exact ih (h.visit_some (v := ⟨f, c, n⟩) hg) g

theorem Logs.enter (h : Logs files t log) (depth : Nat) (e : Callable) :
    Logs files (enter files (functions files) depth t e)
      (visitsFrom files (depth - 1) e log) := by
  have hfollow := (h.add (m := .request e.participant e.function.name e.function.isAsync)
    (by simp)).follow (depth - 1) e
  rw [Sequence.enter]
  split
  · exact hfollow.add (by simp)
  · exact hfollow

/-- **The messages for calls are those of the visits.** -/
theorem call_mem_messages_iff {p : CallPlace} {a b : String} :
    .call p a b ∈ messages files depth ↔
      ∃ v ∈ visits files depth, v.message? files = some (.call p a b) := by
  have hall : ∀ (es : List Callable) {t : Trace} {log : List Visit}, Logs files t log →
      Logs files (es.foldl (Sequence.enter files (functions files) depth) t)
        (es.foldl (fun log e => visitsFrom files (depth - 1) e log) log) := by
    intro es
    induction es with
    | nil => exact fun h => h
    | cons e es ih => exact fun h => ih (h.enter depth e)
  have hstart : Logs files ⟨[], []⟩ [] := ⟨rfl, by simp⟩
  exact (hall (files.flatMap entries) hstart).call_mem

/-! ## 3. Why a visit is made, and what it leads to -/

/-- The first of the calls of a function that have a place. -/
def firstAt? (files : List FileFacts) (f : Callable) (p : CallPlace) : Option Call :=
  (callsOf files f).find? fun c => placeOf f c == p

/-- All calls of a function have been looked at. -/
def Followed (files : List FileFacts) (log : List Visit) (f : Callable) : Prop :=
  ∀ c ∈ callsOf files f, placeOf f c ∈ log.map Visit.place

/-- What is known of a visit in a log, where `start f n` says that the calls of `f` were to be
followed down to `n` levels. -/
structure Grounded (files : List FileFacts) (start : Callable → Nat → Prop) (log : List Visit)
    (v : Visit) : Prop where
  /-- It is made for the first call of its place. -/
  first : firstAt? files v.caller v.place = some v.call
  /-- With levels left, the function on which it lands is followed. -/
  followed : 0 < v.levels → ∀ g, v.target? files = some g → Followed files log g
  /-- It is made because its caller was to be followed, or was landed on with a level more. -/
  reason : start v.caller (v.levels + 1) ∨
    ∃ u ∈ log, u.target? files = some v.caller ∧ u.levels = v.levels + 1

theorem Followed.mono (h : Followed files log f) (hsub : log ⊆ log') : Followed files log' f :=
  fun c hc => List.map_subset _ hsub (h c hc)

theorem Grounded.mono {start start' : Callable → Nat → Prop} (h : Grounded files start log v)
    (hsub : log ⊆ log')
    (hstart : ∀ f m, start f m → start' f m ∨
      ∃ u ∈ log', u.target? files = some f ∧ u.levels = m) :
    Grounded files start' log' v where
  first := h.first
  followed hpos g hg := (h.followed hpos g hg).mono hsub
  reason := by
    rcases h.reason with hs | ⟨u, hu, hut, hul⟩
    · exact hstart _ _ hs
    · exact Or.inr ⟨u, hsub hu, hut, hul⟩

/-- A log is extended by visits with reasons. -/
structure Explores (files : List FileFacts) (start : Callable → Nat → Prop)
    (log log' : List Visit) : Prop where
  subset : log ⊆ log'
  grounded : ∀ v ∈ log', v ∈ log ∨ Grounded files start log' v

theorem Explores.refl (files : List FileFacts) (start : Callable → Nat → Prop)
    (log : List Visit) : Explores files start log log :=
  ⟨List.Subset.refl _, fun _ hv => Or.inl hv⟩

theorem Explores.trans {start : Callable → Nat → Prop} {log'' : List Visit}
    (h : Explores files start log log') (h' : Explores files start log' log'') :
    Explores files start log log'' where
  subset := List.Subset.trans h.subset h'.subset
  grounded := by
    intro v hv
    rcases h'.grounded v hv with hv | hv
    · exact (h.grounded v hv).imp_right fun hg => hg.mono h'.subset fun _ _ => Or.inl
    · exact Or.inr hv

/-- The calls of `f`, and of no other function, are to be followed down to `n` levels. -/
def startAt (f : Callable) (n : Nat) (g : Callable) (m : Nat) : Prop := g = f ∧ m = n

/-- Functions are followed as they are to be, down to `n` levels. -/
def Follows (files : List FileFacts) (n : Nat) (follow : Callable → List Visit → List Visit) :
    Prop :=
  ∀ f log, Explores files (startAt f n) log (follow f log) ∧
    (0 < n → Followed files (follow f log) f)

/-- A look at a call, which is the first of its place if that has not been seen. -/
theorem lookAt_spec {follow : Callable → List Visit → List Visit}
    (hfollow : Follows files n follow)
    (hfirst : placeOf f c ∉ log.map Visit.place → firstAt? files f (placeOf f c) = some c) :
    Explores files (startAt f (n + 1)) log (lookAt files n follow f log c) ∧
      placeOf f c ∈ (lookAt files n follow f log c).map Visit.place := by
  rw [lookAt]
  by_cases hseen : (log.map Visit.place).contains (placeOf f c)
  · rw [if_pos hseen]
    exact ⟨Explores.refl _ _ _, List.contains_iff_mem.mp hseen⟩
  · rw [if_neg hseen]
    have hfirst := hfirst (mt List.contains_iff_mem.mpr hseen)
    have hsub : log ⊆ ⟨f, c, n⟩ :: log := List.subset_cons_self _ _
    cases hg : resolve? (functions files) f.path c with
    | none =>
      refine ⟨⟨hsub, fun v hv => ?_⟩, List.mem_cons_self⟩
      rcases List.mem_cons.mp hv with rfl | hv
      · have hnowhere (g : Callable) : resolve? (functions files) f.path c ≠ some g := by simp [hg]
        exact Or.inr ⟨hfirst, fun _ g hg' => absurd hg' (hnowhere g), Or.inl ⟨rfl, rfl⟩⟩
      · exact Or.inl hv
    | some g =>
      obtain ⟨hex, hall⟩ := hfollow g (⟨f, c, n⟩ :: log)
      have hmem : (⟨f, c, n⟩ : Visit) ∈ follow g (⟨f, c, n⟩ :: log) :=
        hex.subset List.mem_cons_self
      refine ⟨⟨List.Subset.trans hsub hex.subset, fun v hv => ?_⟩, List.mem_map_of_mem hmem⟩
      rcases hex.grounded v hv with hv | hv
      · rcases List.mem_cons.mp hv with rfl | hv
        · refine Or.inr ⟨hfirst, fun hpos g' hg' => ?_, Or.inl ⟨rfl, rfl⟩⟩
          obtain rfl : g = g' := Option.some.inj (hg.symm.trans hg')
          exact hall hpos
        · exact Or.inl hv
      · -- what was explored from `g` was reached through this visit
        refine Or.inr (hv.mono (List.Subset.refl _) fun h m hm => Or.inr ?_)
        obtain ⟨rfl, rfl⟩ := hm
        exact ⟨_, hmem, hg, rfl⟩

/-- Looks at the calls of a function one after the other, when those in `before` have been looked
at. -/
theorem foldl_lookAt_spec {follow : Callable → List Visit → List Visit}
    (hfollow : Follows files n follow) (log : List Visit) (after before : List Call)
    (hcalls : callsOf files f = before ++ after)
    (hbefore : ∀ c ∈ before, placeOf f c ∈ log.map Visit.place) :
    Explores files (startAt f (n + 1)) log (after.foldl (lookAt files n follow f) log) ∧
      Followed files (after.foldl (lookAt files n follow f) log) f := by
  induction after generalizing before log with
  | nil =>
    refine ⟨Explores.refl _ _ _, fun c hc => hbefore c ?_⟩
    rwa [hcalls, List.append_nil] at hc
  | cons c after ih =>
    have hfirst : placeOf f c ∉ log.map Visit.place →
        firstAt? files f (placeOf f c) = some c := by
      intro hnew
      have hnone : before.find? (fun d => placeOf f d == placeOf f c) = none := by
        refine List.find?_eq_none.mpr fun d hd heq => hnew ?_
        exact beq_iff_eq.mp heq ▸ hbefore d hd
      rw [firstAt?, hcalls, List.find?_append, hnone]
      simp
    obtain ⟨hex, hplace⟩ := lookAt_spec hfollow hfirst
    have hcalls' : callsOf files f = (before ++ [c]) ++ after := by
      rw [hcalls, List.append_assoc, List.singleton_append]
    obtain ⟨hex', hall⟩ := ih _ (before ++ [c]) hcalls' fun d hd => by
      rcases List.mem_append.mp hd with hd | hd
      · exact List.map_subset _ hex.subset (hbefore d hd)
      · rw [List.mem_singleton.mp hd]
        exact hplace
    exact ⟨hex.trans hex', hall⟩

/-- **Following a function looks at all its calls, and explores what they lead to.** -/
theorem visitsFrom_spec (n : Nat) : Follows files n (visitsFrom files n) := by
  induction n with
  | zero => exact fun f log => ⟨Explores.refl _ _ _, fun h => absurd h (Nat.lt_irrefl 0)⟩
  | succ n ih =>
    intro f log
    rw [visitsFrom]
    obtain ⟨hex, hall⟩ := foldl_lookAt_spec ih log (callsOf files f) [] rfl (by simp)
    exact ⟨hex, fun _ => hall⟩

/-- An entry is to be followed down to all levels but its own. -/
def startAtEntry (files : List FileFacts) (depth : Nat) (f : Callable) (n : Nat) : Prop :=
  f ∈ files.flatMap entries ∧ n = depth - 1

/-- **Every visit of the diagram is grounded, and every entry is followed** if there is more than
one level. -/
theorem visits_spec (files : List FileFacts) (depth : Nat) :
    (∀ v ∈ visits files depth, Grounded files (startAtEntry files depth) (visits files depth) v) ∧
      (1 < depth → ∀ e ∈ files.flatMap entries, Followed files (visits files depth) e) := by
  have hall : ∀ (es : List Callable) (log : List Visit), es ⊆ files.flatMap entries →
      Explores files (startAtEntry files depth) log
        (es.foldl (fun log e => visitsFrom files (depth - 1) e log) log) ∧
      (1 < depth → ∀ e ∈ es,
        Followed files (es.foldl (fun log e => visitsFrom files (depth - 1) e log) log) e) := by
    intro es
    induction es with
    | nil => exact fun log _ => ⟨Explores.refl _ _ _, by simp⟩
    | cons e es ih =>
      intro log hes
      obtain ⟨he, hes⟩ := List.cons_subset.mp hes
      obtain ⟨hex, hfollowed⟩ := visitsFrom_spec (depth - 1) e log
      have hex' : Explores files (startAtEntry files depth) log
          (visitsFrom files (depth - 1) e log) := by
        refine ⟨hex.subset, fun v hv => (hex.grounded v hv).imp_right fun hg => ?_⟩
        refine hg.mono (List.Subset.refl _) fun f m hm => Or.inl ?_
        obtain ⟨rfl, rfl⟩ := hm
        exact ⟨he, rfl⟩
      obtain ⟨hrest, hrestall⟩ := ih (visitsFrom files (depth - 1) e log) hes
      refine ⟨hex'.trans hrest, fun hdepth d hd => ?_⟩
      rcases List.mem_cons.mp hd with rfl | hd
      · exact (hfollowed (by omega)).mono hrest.subset
      · exact hrestall hdepth d hd
  obtain ⟨hex, hfollowed⟩ := hall (files.flatMap entries) [] (List.Subset.refl _)
  exact ⟨fun v hv => (hex.grounded v hv).resolve_left List.not_mem_nil, hfollowed⟩

/-! ## 4. What is drawn -/

/-- Functions are told apart by their file and their name. -/
def Callable.key (f : Callable) : String × String := (f.path, f.function.qualifiedName)

theorem placeOf_congr (h : f.key = g.key) (c : Call) : placeOf f c = placeOf g c := by
  obtain ⟨hpath, hname⟩ := Prod.mk.inj h
  rw [placeOf, placeOf, hpath, hname]

theorem key_eq_of_placeOf_eq {d : Call} (h : placeOf f c = placeOf g d) : f.key = g.key := by
  obtain ⟨hpath, hname, -, -⟩ := CallPlace.mk.inj h
  rw [Callable.key, Callable.key, hpath, hname]

theorem callsOf_congr (files : List FileFacts) (h : f.key = g.key) :
    callsOf files f = callsOf files g := by
  obtain ⟨hpath, hname⟩ := Prod.mk.inj h
  rw [callsOf, callsOf, hpath, hname]

theorem participant_congr (h : f.key = g.key) : f.participant = g.participant := by
  obtain ⟨hpath, hname⟩ := Prod.mk.inj h
  rw [Callable.participant, Callable.participant, hpath, hname]

theorem firstAt?_congr (files : List FileFacts) (h : f.key = g.key) (p : CallPlace) :
    firstAt? files f p = firstAt? files g p := by
  simp only [firstAt?, callsOf_congr files h, placeOf_congr h]

theorem Followed.congr (h : f.key = g.key) (hf : Followed files log f) : Followed files log g :=
  fun c hc => placeOf_congr h c ▸ hf c (callsOf_congr files h ▸ hc)

/-- The call that stands for the place of a call lands on the participant of `g`. -/
def LandsOn (files : List FileFacts) (f : Callable) (c : Call) (g : Callable) : Prop :=
  ∃ d h, firstAt? files f (placeOf f c) = some d ∧ resolve? (functions files) f.path d = some h ∧
    h.participant = g.participant

/-- Every message stands on a line. -/
theorem line_mem_lines {m : Message} (hm : m ∈ messages files depth) :
    indent ++ m.line ∈ lines files depth := by
  have hentries : (files.flatMap entries).isEmpty = false := by
    rw [Bool.eq_false_iff]
    intro hempty
    rw [messages, List.isEmpty_iff.mp hempty] at hm
    exact List.not_mem_nil hm
  rw [lines, hentries]
  refine List.mem_cons_of_mem _ (List.mem_map_of_mem (f := (indent ++ ·)) ?_)
  exact List.mem_append_right _ (List.mem_map_of_mem hm)

/-- **A call is drawn if its place is visited and the call that stands for the place lands on the
same participant.** -/
theorem isDrawn_iff :
    IsDrawn files depth f c g ↔
      placeOf f c ∈ (visits files depth).map Visit.place ∧ LandsOn files f c g := by
  have hgrounded := (visits_spec files depth).1
  have hdrawn : IsDrawn files depth f c g ↔
      .call (placeOf f c) f.participant g.participant ∈ messages files depth := by
    constructor
    · rintro ⟨m, hm, rfl, -⟩
      exact hm
    · exact fun hm => ⟨_, hm, rfl, line_mem_lines hm⟩
  rw [hdrawn, call_mem_messages_iff]
  constructor
  · rintro ⟨v, hv, hmessage⟩
    obtain ⟨h, hh, hcall⟩ := Option.map_eq_some_iff.mp hmessage
    obtain ⟨hplace, -, hparticipant⟩ := Message.call.inj hcall
    have hkey : v.caller.key = f.key := key_eq_of_placeOf_eq hplace
    refine ⟨hplace ▸ List.mem_map_of_mem hv, v.call, h, ?_, ?_, hparticipant⟩
    · rw [← firstAt?_congr files hkey, ← hplace]
      exact (hgrounded v hv).first
    · rw [← (Prod.mk.inj hkey).1]
      exact hh
  · rintro ⟨hplace, d, h, hd, hh, hparticipant⟩
    obtain ⟨v, hv, hplace⟩ := List.mem_map.mp hplace
    have hkey : v.caller.key = f.key := key_eq_of_placeOf_eq hplace
    have hcall : v.call = d := by
      rw [← firstAt?_congr files hkey, ← hplace, (hgrounded v hv).first] at hd
      exact Option.some.inj hd
    refine ⟨v, hv, ?_⟩
    rw [Visit.message?, Visit.target?, hcall, (Prod.mk.inj hkey).1, hh, Option.map_some, hplace,
      participant_congr hkey, hparticipant]

/-! ## 5. When no call is lost -/

/-- A function is followed in time: it is an entry, or a visit lands on it with levels left. -/
def InTime (files : List FileFacts) (depth : Nat) (g : Callable) : Prop :=
  (∃ e ∈ files.flatMap entries, e.key = g.key) ∨
    ∃ v ∈ visits files depth, 0 < v.levels ∧ ∃ h, v.target? files = some h ∧ h.key = g.key

/-- The caller of a visit was followed in time. -/
theorem inTime_caller (hv : v ∈ visits files depth) (hkey : v.caller.key = g.key) :
    InTime files depth g := by
  rcases ((visits_spec files depth).1 v hv).reason with ⟨he, -⟩ | ⟨u, hu, htarget, hlevels⟩
  · exact Or.inl ⟨v.caller, he, hkey⟩
  · exact Or.inr ⟨u, hu, hlevels ▸ Nat.succ_pos _, v.caller, htarget, hkey⟩

/-- All calls of a function are looked at that is followed in time. -/
theorem InTime.followed (h : InTime files depth g) (hdepth : 1 < depth) :
    Followed files (visits files depth) g := by
  obtain ⟨hgrounded, hentries⟩ := visits_spec files depth
  rcases h with ⟨e, he, hkey⟩ | ⟨v, hv, hpos, h, htarget, hkey⟩
  · exact (hentries hdepth e he).congr hkey
  · exact ((hgrounded v hv).followed hpos h htarget).congr hkey

/-- **No call within reach is lost if and only if every function is followed in time that a chain
reaches before the last level and that makes a call itself, and calls of one function at one place
land on one participant.** -/
theorem drawsReach_iff (files : List FileFacts) (depth : Nat) :
    DrawsReach files depth ↔
      (∀ k f c g, Chain files k f c g → k + 1 < max depth 1 →
        (∃ d ∈ callsOf files g, (resolve? (functions files) g.path d).isSome) →
          InTime files depth g) ∧
      ∀ k f c g, Chain files k f c g → k < max depth 1 → LandsOn files f c g := by
  constructor
  · refine fun hall => ⟨?_, fun k f c g hchain hk => (isDrawn_iff.mp (hall k f c g hchain hk)).2⟩
    rintro k f c g hchain hk ⟨d, hd, hlands⟩
    obtain ⟨h, hh⟩ := Option.isSome_iff_exists.mp hlands
    -- the call is the last of a longer chain, so a visit was made for its place
    have hdrawn := hall (k + 1) g d h (hchain.next hd hh) hk
    obtain ⟨v, hv, hplace⟩ := List.mem_map.mp (isDrawn_iff.mp hdrawn).1
    exact inTime_caller hv (key_eq_of_placeOf_eq hplace)
  · rintro ⟨htime, hlands⟩ k f c g hchain hk
    refine isDrawn_iff.mpr ⟨?_, hlands k f c g hchain hk⟩
    cases hchain with
    | first he hc hg => exact (visits_spec files depth).2 (by omega) f he c hc
    | next hchain hd hh =>
      have hfollowed := htime _ _ _ _ hchain hk ⟨c, hd, by rw [hh]; rfl⟩
      exact hfollowed.followed (by omega) c hd

/-- A file in which `start` calls `open`, which calls `read`, which calls `parse`.  The first two
are exported. -/
def relay : FileFacts :=
  let function (name : String) (isExported : Bool) : Function :=
    ⟨name, name, [], none, isExported, false, default, none⟩
  let call (caller callee : String) (line : Nat) : Call :=
    ⟨caller, callee, none, [], { (default : Location) with startLine := line }⟩
  { FileFacts.empty "src/app.ts" .typescript with
    functions := [function "start" true, function "open" true, function "read" false,
      function "parse" false]
    calls := [call "start" "open" 2, call "open" "read" 5, call "read" "parse" 8] }

/-- **Three levels do not draw all calls within reach**: from the entry `open` it is two calls to
`parse`, but `read` has already been met on the last level below the entry `start`. -/
theorem not_drawsReach_relay : ¬ DrawsReach [relay] 3 := by
  intro hall
  let reader : Callable := ⟨relay.path, relay.functions[2]⟩
  let parser : Callable := ⟨relay.path, relay.functions[3]⟩
  have hfirst : Chain [relay] 1 ⟨relay.path, relay.functions[1]⟩ relay.calls[1] reader :=
    .first (by decide) (by decide) (by decide)
  have hchain : Chain [relay] 2 reader relay.calls[2] parser :=
    hfirst.next (by decide) (by decide)
  obtain ⟨m, hm, rfl, -⟩ := hall 2 _ _ _ hchain (by decide)
  exact absurd hm (by decide)

end Codemap.Diagram.Sequence
