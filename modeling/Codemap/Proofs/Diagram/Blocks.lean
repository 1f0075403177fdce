/-
# The shape of the diagram of calls

The messages of the diagram come in blocks, one for each entry: the client's call of it, the calls
that follow, and for a function that the client waits for the reply that ends the activation.  What
a run does below an entry is stated once for all of `follow` (`traces_follow`): the messages that it
adds are calls which a chain of calls leads to, and no place of a call is drawn a second time, since
every place that is drawn is among those that have been seen.

That places are seen only once also bounds the run.  As soon as there are as many levels as calls in
the files the levels never run out, and more of them change nothing (`messages_eq_of_lt`).

Main statement: `text_inBlocks`.
-/
import Codemap.Proofs.Diagram.Sequence
import Codemap.Proofs.Order.Distinct
import Mathlib.Data.List.Nodup
import Mathlib.Data.List.Perm.Subperm

namespace Codemap.Diagram.Sequence

variable {files : List FileFacts} {t t' t'' : Trace} {e f g h : Callable} {c d : Call} {m : Message}
  {p : CallPlace} {k n depth : Nat}

/-! ## 1. Chains of calls below one function -/

/-- A call of the function `f` is the last of a chain of `k` calls that starts at `e`: each of them
lands on the function that makes the next one, and the last one lands on `g`. -/
inductive ChainFrom (files : List FileFacts) (e : Callable) :
    Nat → Callable → Call → Callable → Prop
  | first {c : Call} {g : Callable} (hc : c ∈ callsOf files e)
      (hg : resolve? (functions files) e.path c = some g) : ChainFrom files e 1 e c g
  | next {k : Nat} {f g h : Callable} {c d : Call} (hchain : ChainFrom files e k f c g)
      (hd : d ∈ callsOf files g) (hh : resolve? (functions files) g.path d = some h) :
      ChainFrom files e (k + 1) g d h

/-- A chain may get a call before its first one. -/
theorem ChainFrom.cons (hc : c ∈ callsOf files e)
    (hg : resolve? (functions files) e.path c = some g) (hchain : ChainFrom files g k f d h) :
    ChainFrom files e (k + 1) f d h := by
  induction hchain with
  | first hd hh => exact (ChainFrom.first hc hg).next hd hh
  | next _ hd hh ih => exact ih.next hd hh

theorem mem_of_resolve? {all : List Callable} {path : String} (h : resolve? all path c = some g) :
    g ∈ all := by
  simp only [resolve?, Option.orElse_eq_orElse, Option.orElse_eq_or, Option.or_eq_some_iff] at h
  rcases h with h | ⟨-, h | ⟨-, h⟩⟩
  · obtain ⟨name, -, h⟩ := Option.bind_eq_some_iff.mp h
    exact List.mem_of_find?_eq_some h
  · exact List.mem_of_mem_filter (List.mem_of_find?_eq_some h)
  · exact List.mem_of_mem_filter (List.mem_of_head? h)

/-- What the last call of a chain lands on is a function of the files. -/
theorem ChainFrom.mem_functions (h : ChainFrom files e k f c g) : g ∈ functions files := by
  cases h with
  | first _ hg => exact mem_of_resolve? hg
  | next _ _ hh => exact mem_of_resolve? hh

/-- The message is for the last call of a chain of `k` calls that starts at `e`, and goes to the
function of the files on which that call lands. -/
def EndsChain (files : List FileFacts) (e : Callable) (k : Nat) (m : Message) : Prop :=
  ∃ f c g, ChainFrom files e k f c g ∧ g ∈ functions files ∧
    m = .call (placeOf f c) f.participant g.participant

/-! ## 2. What following a function adds -/

/-- The place of the call that a message is for. -/
def Message.place? : Message → Option CallPlace
  | request _ _ _ => none
  | call place _ _ => some place
  | reply _ _ => none

/-- The participant that a message comes from. -/
def Message.source : Message → String
  | request _ _ _ => client
  | call _ source _ => source
  | reply source _ => source

/-- The places of all calls of the files. -/
def callPlaces (files : List FileFacts) : List CallPlace :=
  files.flatMap fun f => f.calls.map fun c => ⟨f.path, c.caller, c.callee, c.location.startLine⟩

theorem placeOf_mem_callPlaces (h : c ∈ callsOf files f) : placeOf f c ∈ callPlaces files := by
  obtain ⟨file, hfile, hc⟩ := List.mem_flatMap.mp h
  obtain ⟨hfile, hpath⟩ := List.mem_filter.mp hfile
  obtain ⟨hc, hcaller⟩ := List.mem_filter.mp hc
  refine List.mem_flatMap.mpr ⟨file, hfile, List.mem_map.mpr ⟨c, hc, ?_⟩⟩
  rw [beq_iff_eq.mp hpath, beq_iff_eq.mp hcaller, placeOf]

namespace Trace

/-- The trace after a look at a place. -/
def look (t : Trace) (p : CallPlace) : Trace := { t with seen := p :: t.seen }

/-- The places for which there are messages. -/
def drawn (t : Trace) : List CallPlace := t.messages.filterMap Message.place?

/-- Every place is seen once, is that of a call of the files, and has been seen if it is drawn;
and no place is drawn twice. -/
structure Sound (files : List FileFacts) (t : Trace) : Prop where
  nodup_seen : t.seen.Nodup
  seen_subset : t.seen ⊆ callPlaces files
  nodup_drawn : t.drawn.Nodup
  drawn_subset : t.drawn ⊆ t.seen

theorem drawn_add (t : Trace) (m : Message) : (t.add m).drawn = t.drawn ++ m.place?.toList := by
  cases hm : m.place? <;> simp [drawn, add, hm]

/-- Messages that are not for calls do not matter. -/
theorem Sound.add (h : t.Sound files) (hm : m.place? = none) : (t.add m).Sound files := by
  have hdrawn : (t.add m).drawn = t.drawn := by
    rw [drawn_add, hm, Option.toList_none, List.append_nil]
  exact ⟨h.nodup_seen, h.seen_subset, hdrawn ▸ h.nodup_drawn, hdrawn ▸ h.drawn_subset⟩

theorem Sound.look (h : t.Sound files) (hp : p ∈ callPlaces files) (hnew : p ∉ t.seen) :
    (t.look p).Sound files where
  nodup_seen := List.nodup_cons.mpr ⟨hnew, h.nodup_seen⟩
  seen_subset := List.cons_subset.mpr ⟨hp, h.seen_subset⟩
  nodup_drawn := h.nodup_drawn
  drawn_subset := List.Subset.trans h.drawn_subset (List.subset_cons_self _ _)

/-- A place may be drawn when it is seen. -/
theorem Sound.draw (h : t.Sound files) (hp : p ∈ callPlaces files) (hnew : p ∉ t.seen)
    (a b : String) : ((t.look p).add (.call p a b)).Sound files where
  nodup_seen := (h.look hp hnew).nodup_seen
  seen_subset := (h.look hp hnew).seen_subset
  nodup_drawn := by
    rw [drawn_add]
    exact h.nodup_drawn.append (List.nodup_singleton p)
      (List.disjoint_singleton.mpr fun hdrawn => hnew (h.drawn_subset hdrawn))
  drawn_subset := by
    rw [drawn_add]
    refine List.append_subset.mpr ⟨(h.look hp hnew).drawn_subset, ?_⟩
    exact List.cons_subset.mpr ⟨List.mem_cons_self, List.nil_subset _⟩

/-- No more places are seen than there are calls. -/
theorem Sound.length_seen_le (h : t.Sound files) : t.seen.length ≤ (callPlaces files).length :=
  (h.nodup_seen.subperm h.seen_subset).length_le

/-- When as many places have been seen as there are calls, all have been seen. -/
theorem Sound.seen_of_length_le (h : t.Sound files)
    (hle : (callPlaces files).length ≤ t.seen.length) : callPlaces files ⊆ t.seen :=
  ((h.nodup_seen.subperm h.seen_subset).perm_of_length_le hle).symm.subset

end Trace

/-- The trace `t'` comes from `t` by following `f` down to `n` levels. -/
structure Traces (files : List FileFacts) (n : Nat) (f : Callable) (t t' : Trace) : Prop where
  messages : ∃ ms, t'.messages = t.messages ++ ms ∧ (∀ m ∈ ms, ∃ k ≤ n, EndsChain files f k m) ∧
    ∀ m ∈ ms, m.source = f.participant ∨ ∃ m' ∈ ms, m.source = m'.target
  sound : t.Sound files → t'.Sound files
  seen : t.seen.length ≤ t'.seen.length

theorem Traces.refl (files : List FileFacts) (n : Nat) (f : Callable) (t : Trace) :
    Traces files n f t t :=
  ⟨⟨[], (List.append_nil _).symm, by simp, by simp⟩, id, Nat.le_refl _⟩

theorem Traces.trans (h : Traces files n f t t') (h' : Traces files n f t' t'') :
    Traces files n f t t'' := by
  obtain ⟨ms, hms, hends, hsource⟩ := h.messages
  obtain ⟨ms', hms', hends', hsource'⟩ := h'.messages
  refine ⟨⟨ms ++ ms', ?_, fun m hm => ?_, fun m hm => ?_⟩, h'.sound ∘ h.sound,
    Nat.le_trans h.seen h'.seen⟩
  · rw [hms', hms, List.append_assoc]
  · exact (List.mem_append.mp hm).elim (hends m) (hends' m)
  · rcases List.mem_append.mp hm with hm | hm
    · refine (hsource m hm).imp_right ?_
      rintro ⟨m', hm', htarget⟩
      exact ⟨m', List.mem_append_left _ hm', htarget⟩
    · refine (hsource' m hm).imp_right ?_
      rintro ⟨m', hm', htarget⟩
      exact ⟨m', List.mem_append_right _ hm', htarget⟩

/-- A call that lands nowhere is seen. -/
theorem Traces.miss (hc : c ∈ callsOf files f) (hnew : placeOf f c ∉ t.seen) :
    Traces files n f t (t.look (placeOf f c)) :=
  ⟨⟨[], (List.append_nil _).symm, by simp, by simp⟩,
    fun h => h.look (placeOf_mem_callPlaces hc) hnew, Nat.le_succ _⟩

/-- A call that lands on `g` is seen and drawn, and `g` is followed down to a level less. -/
theorem Traces.hit (hc : c ∈ callsOf files f) (hnew : placeOf f c ∉ t.seen)
    (hg : resolve? (functions files) f.path c = some g)
    (h : Traces files n g ((t.look (placeOf f c)).add
      (.call (placeOf f c) f.participant g.participant)) t') : Traces files (n + 1) f t t' := by
  obtain ⟨ms, hms, hends, hsource⟩ := h.messages
  refine ⟨⟨.call (placeOf f c) f.participant g.participant :: ms, ?_, ?_, ?_⟩,
    fun hsound => ?_, ?_⟩
  · rw [hms, Trace.add, List.append_assoc]
    rfl
  · rw [List.forall_mem_cons]
    have hfirst : ChainFrom files f 1 f c g := .first hc hg
    refine ⟨⟨1, Nat.le_add_left 1 n, f, c, g, hfirst, hfirst.mem_functions, rfl⟩, fun m hm => ?_⟩
    obtain ⟨k, hk, h, d, g', hchain, hg', rfl⟩ := hends m hm
    exact ⟨k + 1, Nat.succ_le_succ hk, h, d, g', hchain.cons hc hg, hg', rfl⟩
  · rw [List.forall_mem_cons]
    refine ⟨Or.inl rfl, fun m hm => Or.inr ?_⟩
    -- what `g` calls comes from the participant that its own call went to
    rcases hsource m hm with heq | ⟨m', hm', heq⟩
    · exact ⟨_, List.mem_cons_self, heq⟩
    · exact ⟨m', List.mem_cons_of_mem _ hm', heq⟩
  · exact h.sound (hsound.draw (placeOf_mem_callPlaces hc) hnew _ _)
  · exact Nat.le_trans (Nat.le_succ _) h.seen

/-- What following a function does with one of its calls. -/
def followCall (files : List FileFacts) (n : Nat) (f : Callable) (t : Trace) (c : Call) : Trace :=
  if placeOf f c ∈ t.seen then t
  else
    match resolve? (functions files) f.path c with
    | none => t.look (placeOf f c)
    | some g => follow files (functions files) n g g.participant
        ((t.look (placeOf f c)).add (.call (placeOf f c) f.participant g.participant))

theorem follow_succ (files : List FileFacts) (n : Nat) (f : Callable) (t : Trace) :
    follow files (functions files) (n + 1) f f.participant t =
      (callsOf files f).foldl (followCall files n f) t := by
  rw [follow]
  congr 1
  funext t c
  simp only [followCall, List.contains_iff_mem]
  rfl

theorem traces_followCall
    (hfollow : ∀ g t, Traces files n g t (follow files (functions files) n g g.participant t))
    (hc : c ∈ callsOf files f) (t : Trace) :
    Traces files (n + 1) f t (followCall files n f t c) := by
  rw [followCall]
  split
  · exact .refl files (n + 1) f t
  next hnew =>
    split
    · exact .miss hc hnew
    next g hg => exact .hit hc hnew hg (hfollow g _)

/-- **Following a function adds calls that chains lead to, each place at most once.**  The induction
is on the levels, and inside it on the calls of the function. -/
theorem traces_follow (files : List FileFacts) (n : Nat) (f : Callable) (t : Trace) :
    Traces files n f t (follow files (functions files) n f f.participant t) := by
  induction n generalizing f t with
  | zero => exact .refl files 0 f t
  | succ n ih =>
    have hall : ∀ (cs : List Call) (t : Trace), cs ⊆ callsOf files f →
        Traces files (n + 1) f t (cs.foldl (followCall files n f) t) := by
      intro cs
      induction cs with
      | nil => exact fun t _ => .refl files (n + 1) f t
      | cons c cs ihcs =>
        intro t hsub
        obtain ⟨hc, hsub⟩ := List.cons_subset.mp hsub
        exact (traces_followCall ih hc t).trans (ihcs _ hsub)
    rw [follow_succ]
    exact hall _ t (List.Subset.refl _)

/-! ## 3. Levels enough -/

/-- Where all calls have been seen there is nothing to follow. -/
theorem follow_of_seen (hseen : callPlaces files ⊆ t.seen) :
    follow files (functions files) n f f.participant t = t := by
  cases n with
  | zero => rfl
  | succ n =>
    have hall : ∀ cs ⊆ callsOf files f, cs.foldl (followCall files n f) t = t := by
      intro cs
      induction cs with
      | nil => exact fun _ => rfl
      | cons c cs ih =>
        intro hsub
        obtain ⟨hc, hsub⟩ := List.cons_subset.mp hsub
        rw [List.foldl_cons, followCall, if_pos (hseen (placeOf_mem_callPlaces hc)), ih hsub]
    rw [follow_succ]
    exact hall _ (List.Subset.refl _)

/-- **With as many levels as there are calls left to see, more levels change nothing.** -/
theorem follow_congr {k : Nat} (h : t.Sound files)
    (hn : (callPlaces files).length ≤ t.seen.length + n)
    (hn' : (callPlaces files).length ≤ t.seen.length + k) :
    follow files (functions files) n f f.participant t =
      follow files (functions files) k f f.participant t := by
  induction n generalizing k f t with
  | zero => rw [follow_of_seen (h.seen_of_length_le hn), follow_of_seen (h.seen_of_length_le hn)]
  | succ n ih =>
    cases k with
    | zero =>
      rw [follow_of_seen (h.seen_of_length_le hn'), follow_of_seen (h.seen_of_length_le hn')]
    | succ k =>
      have hall : ∀ (cs : List Call) (t : Trace), cs ⊆ callsOf files f → t.Sound files →
          (callPlaces files).length ≤ t.seen.length + (n + 1) →
          (callPlaces files).length ≤ t.seen.length + (k + 1) →
          cs.foldl (followCall files n f) t = cs.foldl (followCall files k f) t := by
        intro cs
        induction cs with
        | nil => exact fun _ _ _ _ _ => rfl
        | cons c cs ihcs =>
          intro t hsub ht hn hn'
          obtain ⟨hc, hsub⟩ := List.cons_subset.mp hsub
          have hsame : followCall files n f t c = followCall files k f t c := by
            rw [followCall, followCall]
            split
            · rfl
            next hnew =>
              split
              · rfl
              next g hg =>
                -- the place is seen now, so a level less is enough
                have hlength : ((t.look (placeOf f c)).add
                    (.call (placeOf f c) f.participant g.participant)).seen.length =
                      t.seen.length + 1 := rfl
                have ht' := ht.draw (placeOf_mem_callPlaces hc) hnew f.participant g.participant
                exact ih (k := k) ht' (by omega) (by omega)
          obtain ⟨-, hsound, hle⟩ := traces_followCall (traces_follow files n) hc t
          rw [List.foldl_cons, List.foldl_cons, ← hsame]
          exact ihcs _ hsub (hsound ht) (by omega) (by omega)
      rw [follow_succ, follow_succ]
      exact hall _ t (List.Subset.refl _) h hn hn'

/-! ## 4. Blocks -/

/-- The trace of the whole diagram. -/
def run (files : List FileFacts) (depth : Nat) : Trace :=
  (files.flatMap entries).foldl (enter files (functions files) depth) ⟨[], []⟩

/-- The messages for an entry: its request, calls that chains of fewer calls than levels lead to
from it, and for a function that the client waits for one reply. -/
def IsBlock (files : List FileFacts) (depth : Nat) (e : Callable) (b : List Message) : Prop :=
  ∃ calls, b = .request e.participant e.function.name e.function.isAsync :: calls ++
      (if e.function.isAsync then [.reply e.participant e.function.name] else []) ∧
    ∀ m ∈ calls, ∃ k < max depth 1, EndsChain files e k m

/-- Every message comes from the client, or from where another one went. -/
def Sourced (ms : List Message) : Prop :=
  ∀ m ∈ ms, m.source = client ∨ ∃ m' ∈ ms, m.source = m'.target

theorem Sourced.append {ms ms' : List Message} (h : Sourced ms) (h' : Sourced ms') :
    Sourced (ms ++ ms') := by
  intro m hm
  rcases List.mem_append.mp hm with hm | hm
  · refine (h m hm).imp_right ?_
    rintro ⟨m', hm', heq⟩
    exact ⟨m', List.mem_append_left _ hm', heq⟩
  · refine (h' m hm).imp_right ?_
    rintro ⟨m', hm', heq⟩
    exact ⟨m', List.mem_append_right _ hm', heq⟩

/-- The request and the reply are put around what following the entry adds. -/
theorem enter_eq (files : List FileFacts) (depth : Nat) (t : Trace) (e : Callable) :
    enter files (functions files) depth t e =
      let followed := follow files (functions files) (depth - 1) e e.participant
        (t.add (.request e.participant e.function.name e.function.isAsync))
      if e.function.isAsync then followed.add (.reply e.participant e.function.name)
      else followed := rfl

/-- **An entry adds a block.** -/
theorem enter_spec (files : List FileFacts) (depth : Nat) (t : Trace) (e : Callable) :
    (t.Sound files → (enter files (functions files) depth t e).Sound files) ∧
      ∃ b, (enter files (functions files) depth t e).messages = t.messages ++ b ∧
        IsBlock files depth e b ∧ Sourced b := by
  obtain ⟨⟨ms, hms, hends, hsource⟩, hsound, -⟩ := traces_follow files (depth - 1) e
    (t.add (.request e.participant e.function.name e.function.isAsync))
  have hends : ∀ m ∈ ms, ∃ k < max depth 1, EndsChain files e k m := by
    intro m hm
    obtain ⟨k, hk, hend⟩ := hends m hm
    exact ⟨k, by omega, hend⟩
  have hsourced : ∀ last : List Message, (∀ m ∈ last, m.source = e.participant) →
      Sourced (.request e.participant e.function.name e.function.isAsync :: ms ++ last) := by
    intro last hlast m hm
    have hentry : m.source = e.participant → m.source = client ∨
        ∃ m' ∈ .request e.participant e.function.name e.function.isAsync :: ms ++ last,
          m.source = m'.target :=
      fun heq => Or.inr ⟨_, List.mem_append_left _ List.mem_cons_self, heq⟩
    rcases List.mem_append.mp hm with hm | hm
    · rcases List.mem_cons.mp hm with rfl | hm
      · exact Or.inl rfl
      · rcases hsource m hm with heq | ⟨m', hm', heq⟩
        · exact hentry heq
        · exact Or.inr ⟨m', List.mem_append_left _ (List.mem_cons_of_mem _ hm'), heq⟩
    · exact hentry (hlast m hm)
  rw [enter_eq]
  dsimp only
  split
  next hasync =>
    refine ⟨fun ht => (hsound (ht.add rfl)).add rfl, _, ?_, ⟨ms, rfl, hends⟩, hsourced _ ?_⟩
    · rw [Trace.add, hms, if_pos hasync, Trace.add]
      simp only [List.append_assoc, List.cons_append, List.nil_append]
    · rw [if_pos hasync]
      exact fun m hm => by rw [List.mem_singleton.mp hm, Message.source]
  next hasync =>
    refine ⟨fun ht => hsound (ht.add rfl), _, ?_, ⟨ms, rfl, hends⟩, hsourced _ ?_⟩
    · rw [hms, if_neg hasync, Trace.add]
      simp only [List.append_assoc, List.cons_append, List.nil_append, List.append_nil]
    · rw [if_neg hasync]
      exact fun m hm => absurd hm List.not_mem_nil

theorem sound_start (files : List FileFacts) : Trace.Sound files ⟨[], []⟩ :=
  ⟨List.nodup_nil, List.nil_subset _, List.nodup_nil, List.nil_subset _⟩

/-- **A run adds one block for each entry.** -/
theorem exists_blocks (files : List FileFacts) (depth : Nat) :
    (run files depth).Sound files ∧
      ∃ blocks, messages files depth = blocks.flatten ∧
        List.Forall₂ (IsBlock files depth) (files.flatMap entries) blocks ∧
        Sourced (messages files depth) := by
  have hall : ∀ (es : List Callable) (t : Trace), t.Sound files →
      (es.foldl (enter files (functions files) depth) t).Sound files ∧
        ∃ blocks, (es.foldl (enter files (functions files) depth) t).messages =
            t.messages ++ blocks.flatten ∧
          List.Forall₂ (IsBlock files depth) es blocks ∧ Sourced blocks.flatten := by
    intro es
    induction es with
    | nil => exact fun t ht => ⟨ht, [], (List.append_nil _).symm, .nil, by simp [Sourced]⟩
    | cons e es ih =>
      intro t ht
      obtain ⟨hsound, b, hb, hblock, hsourced⟩ := enter_spec files depth t e
      obtain ⟨hrun, bs, hbs, hblocks, hsources⟩ := ih _ (hsound ht)
      refine ⟨hrun, b :: bs, ?_, .cons hblock hblocks, ?_⟩
      · rw [List.foldl_cons, hbs, hb, List.flatten_cons, List.append_assoc]
      · rw [List.flatten_cons]
        exact hsourced.append hsources
  obtain ⟨hsound, blocks, hmessages, hblocks, hsourced⟩ :=
    hall (files.flatMap entries) ⟨[], []⟩ (sound_start files)
  have hmessages : messages files depth = blocks.flatten := hmessages.trans (List.nil_append _)
  exact ⟨hsound, blocks, hmessages, hblocks, hmessages ▸ hsourced⟩

/-- **More levels than calls change nothing.** -/
theorem messages_eq_of_lt {depth' : Nat} (h : (callPlaces files).length < depth)
    (h' : (callPlaces files).length < depth') : messages files depth = messages files depth' := by
  have hall : ∀ (es : List Callable) (t : Trace), t.Sound files →
      es.foldl (enter files (functions files) depth) t =
        es.foldl (enter files (functions files) depth') t := by
    intro es
    induction es with
    | nil => exact fun _ _ => rfl
    | cons e es ih =>
      intro t ht
      have hsame : enter files (functions files) depth t e =
          enter files (functions files) depth' t e := by
        rw [enter_eq, enter_eq, follow_congr (k := depth' - 1) (ht.add rfl) (by omega) (by omega)]
      rw [List.foldl_cons, List.foldl_cons, ← hsame]
      exact ih _ ((enter_spec files depth t e).1 ht)
  exact congrArg Trace.messages (hall (files.flatMap entries) ⟨[], []⟩ (sound_start files))

/-! ## 5. Activations -/

/-- The participant that is active after a message, if `active` was before it: a request that is
waited for starts an activation where there is none, and a reply ends the one of its source. -/
def activate (active : Option String) : Message → Option (Option String)
  | .request target _ true => if active = none then some (some target) else none
  | .reply source _ => if active = some source then some none else none
  | _ => some active

/-- Calls neither start nor end an activation. -/
theorem foldlM_activate_calls {e : Callable} {calls : List Message}
    (h : ∀ m ∈ calls, ∃ k < max depth 1, EndsChain files e k m) (active : Option String) :
    calls.foldlM activate active = some active := by
  induction calls with
  | nil => rfl
  | cons m calls ih =>
    obtain ⟨⟨k, -, f, c, g, -, -, rfl⟩, hrest⟩ := List.forall_mem_cons.mp h
    rw [List.foldlM_cons]
    exact ih hrest

/-- A block ends the activation that it starts. -/
theorem IsBlock.activations {b : List Message} (h : IsBlock files depth e b) :
    b.foldlM activate none = some none := by
  obtain ⟨calls, rfl, hcalls⟩ := h
  rw [List.cons_append, List.foldlM_cons]
  cases e.function.isAsync with
  | false =>
    show (calls ++ []).foldlM activate none = some none
    rw [List.append_nil]
    exact foldlM_activate_calls hcalls none
  | true =>
    show (calls ++ _).foldlM activate (some e.participant) = some none
    rw [List.foldlM_append, foldlM_activate_calls hcalls]
    simp [activate]

theorem foldlM_activate_flatten {es : List Callable} {blocks : List (List Message)}
    (h : List.Forall₂ (IsBlock files depth) es blocks) :
    blocks.flatten.foldlM activate none = some none := by
  induction h with
  | nil => rfl
  | cons hblock _ ih =>
    rw [List.flatten_cons, List.foldlM_append, hblock.activations]
    exact ih

/-! ## 6. The text -/

/-- The participants `ps` and the blocks of messages that a diagram shows. -/
structure InBlocks (files : List FileFacts) (depth : Nat) (ps : List String)
    (blocks : List (List Message)) : Prop where
  client_first : ps.head? = some client
  nodup : ps.Nodup
  declared : ∀ p, p ∈ ps ↔ p = client ∨ ∃ m ∈ blocks.flatten, p = m.source ∨ p = m.target
  block : List.Forall₂ (IsBlock files depth) (files.flatMap entries) blocks
  activations : blocks.flatten.foldlM activate none = some none
  once : (blocks.flatten.filterMap Message.place?).Nodup

theorem mem_participants_iff {ms : List Message} (h : Sourced ms) (p : String) :
    p ∈ participants ms ↔ p = client ∨ ∃ m ∈ ms, p = m.source ∨ p = m.target := by
  rw [participants, Order.mem_distinct, List.mem_cons, List.mem_map]
  refine or_congr_right' fun hclient => ⟨?_, ?_⟩
  · rintro ⟨m, hm, rfl⟩
    exact ⟨m, hm, Or.inr rfl⟩
  · rintro ⟨m, hm, rfl | rfl⟩
    · obtain ⟨m', hm', heq⟩ := (h m hm).resolve_left hclient
      exact ⟨m', hm', heq.symm⟩
    · exact ⟨m, hm, rfl⟩

/-- **The diagram declares its participants and shows one block for each entry**, and the run that
draws it ends for the calls' sake: it looks at no more places than there are calls, and from a
number of levels on that exceeds the number of calls more levels change nothing. -/
theorem text_inBlocks (files : List FileFacts) (depth : Nat) (h : files.flatMap entries ≠ []) :
    (∃ ps blocks, InBlocks files depth ps blocks ∧
      text files depth = ofLines ("sequenceDiagram" ::
        (ps.map ("participant " ++ ·) ++ blocks.flatten.map Message.line).map (indent ++ ·))) ∧
    (run files depth).seen.length ≤ (callPlaces files).length ∧
    ∀ depth', (callPlaces files).length < depth → (callPlaces files).length < depth' →
      text files depth = text files depth' := by
  obtain ⟨hsound, blocks, hmessages, hblocks, hsourced⟩ := exists_blocks files depth
  refine ⟨⟨participants (messages files depth), blocks, ⟨?_, ?_, ?_, hblocks, ?_, ?_⟩, ?_⟩, ?_, ?_⟩
  · rw [participants, Order.head?_distinct, List.head?_cons]
  · exact Order.nodup_distinct _
  · rw [← hmessages]
    exact mem_participants_iff hsourced
  · exact foldlM_activate_flatten hblocks
  · rw [← hmessages]
    exact hsound.nodup_drawn
  · rw [text, lines, if_neg (by simpa using h), ← hmessages]
  · exact hsound.length_seen_le
  · intro depth' hlt hlt'
    rw [text, text, lines, lines, messages_eq_of_lt hlt hlt']

/-- A file with two functions that call each other.  The client waits for the first one. -/
def ring : FileFacts :=
  let function (name : String) (isEntry : Bool) : Function :=
    ⟨name, name, [], none, isEntry, isEntry, default, none⟩
  let call (caller callee : String) (line : Nat) : Call :=
    ⟨caller, callee, none, [], { (default : Location) with startLine := line }⟩
  { FileFacts.empty "src/app.ts" .typescript with
    functions := [function "load" true, function "parse" false]
    calls := [call "load" "parse" 2, call "parse" "load" 6] }

/-- Going round the ring ends after both calls, at the greatest number of levels too. -/
theorem text_inBlocks_ring :
    [ring].flatMap entries ≠ [] ∧
      (∃ ps blocks, InBlocks [ring] 18446744073709551615 ps blocks) ∧
      text [ring] 18446744073709551615 = "sequenceDiagram\n    participant Client\n" ++
        "    participant app\n    Client->>+app: load() (async)\n    app->>app: parse()\n" ++
        "    app->>app: load()\n    app-->>-Client: load result\n" := by
  have hentries : [ring].flatMap entries ≠ [] := by decide
  obtain ⟨⟨ps, blocks, hblocks, -⟩, -, hdepth⟩ :=
    text_inBlocks [ring] 18446744073709551615 hentries
  refine ⟨hentries, ⟨ps, blocks, hblocks⟩, ?_⟩
  rw [hdepth 3 (by decide) (by decide)]
  decide +kernel

end Codemap.Diagram.Sequence
