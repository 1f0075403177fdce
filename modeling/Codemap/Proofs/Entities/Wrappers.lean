/-
# The type within its wrappers

A declared type names the type that is meant within wrappers: it is an array of it, the argument of
a container, or one of two alternatives of which the other is `null`.  `elementType` takes the
wrappers off from outside to inside, and it reads the text, not the wrappers: it cuts at the first
`|`, takes one pair of brackets away at the end, and goes on between the first `<` and the last `>`.

An alternative that stands outside of all containers is cut off as it should be.  One that stands
within a container is cut off first as well, and the closing bracket of the container with it.  So
containers are left open that nothing closes (`opened`), and the text comes to its end within one of
them, short of the type that is meant.

Main statement: `elementType_text_iff`.  Whatever the text, taking wrappers off comes to an end, and
it finds the type that is meant exactly if no alternative stands within a container.  The
counterexample is a collection of what may be `null` (`not_elementType_nullable`).
-/
import Codemap.Entities.EcmaScript
import Codemap.Proofs.Text.Between

namespace Codemap.Entities.EcmaScript

open Codemap.Facts Codemap.Text

/-! ## 1. Wrapped types -/

/-- A character that a name may hold: no blank, and no mark that a type is made of. -/
def isNameChar (c : Char) : Bool :=
  !isBlank c && !(['|', '<', '>', '[', ']', '(', ')'].contains c)

theorem isNameChar_iff {c : Char} : isNameChar c = true ↔
    isBlank c = false ∧ c ∉ ['|', '<', '>', '[', ']', '(', ')'] := by
  simp [isNameChar]

/-- The name of a type that is no container. -/
structure TypeName where
  text : List Char
  isNameChar_of_mem : ∀ c ∈ text, isNameChar c = true
  not_container : containerTypes.contains (.ofList text) = false

/-- A type in its wrappers.  The argument of a container is followed by some alternatives that are
`null`. -/
inductive Wrapped where
  | name (n : TypeName)
  | array (element : Wrapped)
  | container (c : String) (mem : c ∈ containerTypes) (argument : Wrapped) (nulls : Nat)

/-- Alternatives that are `null`. -/
def alternatives : Nat → List Char
  | 0 => []
  | n + 1 => ' ' :: '|' :: (" null".toList ++ alternatives n)

namespace Wrapped

/-- The text of a type in its wrappers. -/
def text : Wrapped → List Char
  | name n => n.text
  | array element => element.text ++ ['[', ']']
  | container c _ argument nulls =>
    c.toList ++ '<' :: (argument.text ++ alternatives nulls ++ ['>'])

/-- The type that is meant. -/
def core : Wrapped → TypeName
  | name n => n
  | array element => element.core
  | container _ _ argument _ => argument.core

/-- A type without the brackets of an array at its end. -/
def unbracketed : Wrapped → Wrapped
  | array element => element
  | t => t

/-- No alternative stands within a container. -/
def alternativesAreOuter : Wrapped → Bool
  | name _ => true
  | array element => element.alternativesAreOuter
  | container _ _ argument nulls => nulls == 0 && argument.alternativesAreOuter

end Wrapped

/-! ## 2. Steps -/

/-- What is left of a type when a container is taken off. -/
def argument? (type : List Char) : Option (List Char) :=
  if containerTypes.contains (.ofList (baseType (singleType type))) then
    between? '<' '>' (singleType type)
  else none

/-- The type of the elements of a type without alternatives, one pair of brackets at its end being
off. -/
def elementOf (single : List Char) : List Char :=
  if containerTypes.contains (.ofList (baseType single)) then
    match between? '<' '>' single with
    | some inner => elementType inner
    | none => baseType single
  else baseType single

theorem elementType_eq_elementOf (type : List Char) :
    elementType type = elementOf (singleType type) := by
  rw [elementType, elementOf]
  split
  · split <;> next h => rw [h]
  · rfl

theorem length_lt_of_argument? {type inner : List Char} (h : argument? type = some inner) :
    inner.length < type.length := by
  rw [argument?] at h
  split at h
  · exact (length_of_between? h).trans_le (length_singleType_le type)
  · exact absurd h.symm (Option.some_ne_none inner)

/-- A container that is taken off makes no difference. -/
theorem elementType_of_some {type inner : List Char} (h : argument? type = some inner) :
    elementType type = elementType inner := by
  rw [argument?] at h
  rw [elementType_eq_elementOf, elementOf]
  split at h
  next hcontainer => rw [if_pos hcontainer, h]
  · exact absurd h.symm (Option.some_ne_none inner)

theorem elementType_of_none {type : List Char} (h : argument? type = none) :
    elementType type = baseType (singleType type) := by
  rw [argument?] at h
  rw [elementType_eq_elementOf, elementOf]
  split
  next hcontainer => rw [if_pos hcontainer] at h; rw [h]
  · rfl

/-- The wrappers are off when no container is left. -/
theorem elementType_of_mem_eval {type inner : List Char}
    (h : inner ∈ StateTransition.eval argument? type) :
    elementType type = baseType (singleType inner) := by
  obtain ⟨hsame, hend⟩ := eq_of_mem_eval (fun _ _ => elementType_of_some) h
  rw [hsame, elementType_of_none hend]

theorem plain_brackets : ∀ c ∈ ['[', ']'], isBlank c = false ∧ c ≠ '|' :=
  List.forall_mem_cons.mpr ⟨by decide, List.forall_mem_singleton.mpr (by decide)⟩

section Single

variable {s : List Char} (hs : ∀ c ∈ s, isBlank c = false ∧ c ≠ '|')

include hs

/-- The alternatives that may follow a text are cut off. -/
theorem trim_takeWhile_append {tail : List Char}
    (htail : tail = [] ∨ ∃ r, tail = ' ' :: '|' :: r) :
    trim ((s ++ tail).takeWhile (· != '|')) = s := by
  have hbar : ∀ c ∈ s, (c != '|') = true := fun c hc => bne_iff_ne.mpr (hs c hc).2
  rw [List.takeWhile_append_of_pos hbar]
  have hblank : ∀ c ∈ tail.takeWhile (· != '|'), isBlank c = true := by
    rcases htail with rfl | ⟨r, rfl⟩
    · exact fun c hc => absurd hc List.not_mem_nil
    · intro c hc
      obtain rfl : c = ' ' := by simpa using hc
      decide
  exact strip_append (fun c hc => (hs c (List.mem_of_mem_head? hc)).1)
    (fun c hc => (hs c (List.mem_of_mem_getLast? hc)).1) hblank

theorem singleType_append {tail : List Char} (htail : tail = [] ∨ ∃ r, tail = ' ' :: '|' :: r)
    (hend : ¬ ['[', ']'] <:+ s) : singleType (s ++ tail) = s := by
  have hnone : before? ['[', ']'] s = none := by
    rw [before?, if_neg (by rwa [List.isSuffixOf_iff_suffix])]
  rw [singleType, trim_takeWhile_append hs htail, hnone]

theorem singleType_array_append {tail : List Char}
    (htail : tail = [] ∨ ∃ r, tail = ' ' :: '|' :: r) :
    singleType (s ++ ['[', ']'] ++ tail) = s := by
  have hplain : ∀ c ∈ s ++ ['[', ']'], isBlank c = false ∧ c ≠ '|' := by
    intro c hc
    rcases List.mem_append.mp hc with hc | hc
    · exact hs c hc
    · exact plain_brackets c hc
  rw [singleType, trim_takeWhile_append hplain htail, before?_eq_some_iff.mpr rfl]
  exact trim_of_forall fun c hc => (hs c hc).1

end Single

/-- A type without its arguments is the name before them. -/
theorem baseType_append {s r : List Char} (hs : ∀ c ∈ s, isNameChar c = true)
    (hr : ∀ c ∈ r, isBlank c = false) (hhead : ∀ c ∈ r.head?, c = '<' ∨ c = '[') :
    baseType (s ++ r) = s := by
  have hblank : ∀ c ∈ s, isBlank c = false := fun c hc => (isNameChar_iff.mp (hs c hc)).1
  have hname : ∀ c ∈ s, (!(c == '<' || c == '[' || c == '(')) = true := by
    intro c hc
    have hmark := (isNameChar_iff.mp (hs c hc)).2
    simp only [List.mem_cons, not_or] at hmark
    simp [hmark]
  have hstop : r.takeWhile (fun c => !(c == '<' || c == '[' || c == '(')) = [] := by
    cases r with
    | nil => rfl
    | cons c r => rcases hhead c rfl with rfl | rfl <;> rfl
  have hall : ∀ c ∈ s ++ r, isBlank c = false := List.forall_mem_append.mpr ⟨hblank, hr⟩
  rw [baseType, trim_of_forall hall, List.takeWhile_append_of_pos hname, hstop, List.append_nil,
    trim_of_forall hblank]

theorem elementOf_of_not_container {single : List Char}
    (h : containerTypes.contains (.ofList (baseType single)) = false) :
    elementOf single = baseType single := by
  rw [elementOf, h, if_neg Bool.false_ne_true]

section Container

variable {c : String} (mem : c ∈ containerTypes)

include mem

theorem isNameChar_of_mem_containerTypes : ∀ d ∈ c.toList, isNameChar d = true := by
  have hall : ∀ c ∈ containerTypes, c.toList.all isNameChar = true := by decide
  exact List.all_eq_true.mp (hall c mem)

theorem baseType_container {r : List Char} (hr : ∀ d ∈ r, isBlank d = false) :
    baseType (c.toList ++ '<' :: r) = c.toList := by
  refine baseType_append (isNameChar_of_mem_containerTypes mem) ?_ fun d hd => ?_
  · exact List.forall_mem_cons.mpr ⟨by decide, hr⟩
  · exact Or.inl (Option.some.inj hd).symm

theorem elementOf_container {r : List Char} (hr : ∀ d ∈ r, isBlank d = false) :
    elementOf (c.toList ++ '<' :: r) =
      ((between? '<' '>' (c.toList ++ '<' :: r)).map elementType).getD c.toList := by
  have hcontainer : containerTypes.contains (.ofList (baseType (c.toList ++ '<' :: r))) = true := by
    rwa [baseType_container mem hr, String.ofList_toList, List.contains_iff_mem]
  rw [elementOf, if_pos hcontainer, baseType_container mem hr]
  cases between? '<' '>' (c.toList ++ '<' :: r) <;> rfl

end Container

/-! ## 3. Containers that are left open -/

/-- Containers that are opened one within the other. -/
def opened (cs : List String) : List Char := cs.flatMap fun c => c.toList ++ ['<']

/-- Pairs of brackets with nothing between them. -/
def brackets : Nat → List Char
  | 0 => []
  | n + 1 => '[' :: ']' :: brackets n

/-- Behind the text of a type there is nothing, or an alternative. -/
def IsTail (tail : List Char) : Prop := tail = [] ∨ ∃ r, tail = ' ' :: '|' :: r

/-- What is found within open containers: the type that is meant if there are none, and else one of
the containers. -/
def Finds (cs : List String) (t : Wrapped) (found : List Char) : Prop :=
  (cs = [] → found = t.core.text) ∧ (cs ≠ [] → .ofList found ∈ containerTypes)

/-- The text of a type is read to the end within all open containers, whatever brackets follow
it. -/
def IsRead (t : Wrapped) : Prop :=
  ∀ cs ⊆ containerTypes, ∀ n, Finds cs t (elementOf (opened cs ++ (t.text ++ brackets n)))

theorem opened_cons_append (c : String) (cs : List String) (r : List Char) :
    opened (c :: cs) ++ r = c.toList ++ '<' :: (opened cs ++ r) := by
  simp [opened]

theorem opened_append_container (cs : List String) (c : String) (r : List Char) :
    opened cs ++ (c.toList ++ '<' :: r) = opened (cs ++ [c]) ++ r := by
  simp [opened]

theorem mem_brackets {n : Nat} {d : Char} (hd : d ∈ brackets n) : d = '[' ∨ d = ']' := by
  induction n with
  | zero => exact absurd hd List.not_mem_nil
  | succ n ih =>
    simp only [brackets, List.mem_cons] at hd
    tauto

theorem isTail_alternatives (n : Nat) : IsTail (alternatives n) := by
  cases n with
  | zero => exact Or.inl rfl
  | succ n => exact Or.inr ⟨_, rfl⟩

theorem isTail_alternatives_append {n : Nat} (h : n ≠ 0) (r : List Char) :
    IsTail (alternatives n ++ r) := by
  cases n with
  | zero => exact absurd rfl h
  | succ n => exact Or.inr ⟨" null".toList ++ alternatives n ++ r, rfl⟩

theorem plain_of_isNameChar {d : Char} (h : isNameChar d = true) :
    isBlank d = false ∧ d ≠ '|' ∧ d ≠ '>' ∧ d ≠ ']' := by
  obtain ⟨hblank, hmark⟩ := isNameChar_iff.mp h
  simp only [List.mem_cons] at hmark
  tauto

theorem plain_opened {cs : List String} (hcs : cs ⊆ containerTypes) :
    ∀ d ∈ opened cs, isBlank d = false ∧ d ≠ '|' ∧ d ≠ '>' ∧ d ≠ ']' := by
  intro d hd
  obtain ⟨c, hc, hd⟩ := List.mem_flatMap.mp hd
  rcases List.mem_append.mp hd with hd | hd
  · exact plain_of_isNameChar (isNameChar_of_mem_containerTypes (hcs hc) d hd)
  · obtain rfl := List.mem_singleton.mp hd
    decide

namespace Wrapped

theorem text_container_append {c : String} (mem : c ∈ containerTypes) (argument : Wrapped)
    (nulls : Nat) (r : List Char) : (container c mem argument nulls).text ++ r =
      c.toList ++ '<' :: (argument.text ++ (alternatives nulls ++ '>' :: r)) := by
  simp [text]

theorem alternativesAreOuter_container {c : String} {mem : c ∈ containerTypes}
    {argument : Wrapped} {nulls : Nat} :
    (container c mem argument nulls).alternativesAreOuter = true ↔
      nulls = 0 ∧ argument.alternativesAreOuter = true := by
  simp [alternativesAreOuter]

/-- A type without alternatives within it has no blanks. -/
theorem plain_text {t : Wrapped} (h : t.alternativesAreOuter = true) :
    ∀ d ∈ t.text, isBlank d = false ∧ d ≠ '|' := by
  have hname : ∀ d, isNameChar d = true → isBlank d = false ∧ d ≠ '|' := fun d hd =>
    ⟨(plain_of_isNameChar hd).1, (plain_of_isNameChar hd).2.1⟩
  induction t with
  | name n => exact fun d hd => hname d (n.isNameChar_of_mem d hd)
  | array element ih => exact List.forall_mem_append.mpr ⟨ih h, plain_brackets⟩
  | container c mem argument nulls ih =>
    obtain ⟨rfl, hargument⟩ := alternativesAreOuter_container.mp h
    have hclosing : ∀ d ∈ ['>'], isBlank d = false ∧ d ≠ '|' :=
      List.forall_mem_singleton.mpr (by decide)
    simp only [text, alternatives, List.append_nil, List.forall_mem_append, List.forall_mem_cons]
    exact ⟨fun d hd => hname d (isNameChar_of_mem_containerTypes mem d hd), by decide,
      ih hargument, List.forall_mem_cons.mp hclosing⟩

end Wrapped

/-! ## 4. Reading to the end -/

/-- What stands in open containers that nothing closes is one of them. -/
theorem elementOf_opened {c : String} {cs : List String} (hcs : c :: cs ⊆ containerTypes)
    {r : List Char} (hr : ∀ d ∈ r, isBlank d = false ∧ d ≠ '>') :
    .ofList (elementOf (opened (c :: cs) ++ r)) ∈ containerTypes := by
  have mem := hcs List.mem_cons_self
  have hplain : ∀ d ∈ opened cs ++ r, isBlank d = false ∧ d ≠ '>' :=
    List.forall_mem_append.mpr
      ⟨fun d hd => ⟨(plain_opened (List.subset_of_cons_subset hcs) d hd).1,
        (plain_opened (List.subset_of_cons_subset hcs) d hd).2.2.1⟩, hr⟩
  have hopening : '<' ∉ c.toList := fun h =>
    absurd (isNameChar_of_mem_containerTypes mem _ h) (by decide)
  have hclosing : '>' ∉ opened cs ++ r := fun h => (hplain _ h).2 rfl
  rw [opened_cons_append, elementOf_container mem fun d hd => (hplain d hd).1,
    between?_unclosed hopening hclosing]
  rwa [Option.map_none, Option.getD_none, String.ofList_toList]

/-- A container that is closed is taken off. -/
theorem elementOf_opened_append {c : String} {cs : List String} (hcs : c :: cs ⊆ containerTypes)
    {s : List Char} (hs : ∀ d ∈ s, isBlank d = false) (n : Nat) :
    elementOf (opened (c :: cs) ++ (s ++ '>' :: brackets n)) = elementType (opened cs ++ s) := by
  have mem := hcs List.mem_cons_self
  have hopening : '<' ∉ c.toList := fun h =>
    absurd (isNameChar_of_mem_containerTypes mem _ h) (by decide)
  have hclosing : '>' ∉ brackets n := fun h => absurd (mem_brackets h) (by decide)
  have hbrackets : ∀ d ∈ brackets n, isBlank d = false := by
    intro d hd
    rcases mem_brackets hd with rfl | rfl <;> rfl
  have hplain : ∀ d ∈ opened cs ++ (s ++ '>' :: brackets n), isBlank d = false :=
    List.forall_mem_append.mpr
      ⟨fun d hd => (plain_opened (List.subset_of_cons_subset hcs) d hd).1,
        List.forall_mem_append.mpr ⟨hs, List.forall_mem_cons.mpr ⟨rfl, hbrackets⟩⟩⟩
  rw [opened_cons_append, elementOf_container mem hplain, ← List.append_assoc (opened cs),
    between?_append hopening hclosing]
  rfl

/-- A type is found once one pair of brackets is off. -/
theorem finds_elementType {cs : List String} (hcs : cs ⊆ containerTypes) {t : Wrapped}
    (h : t.alternativesAreOuter = true) (hread : IsRead t.unbracketed) {tail : List Char}
    (htail : IsTail tail) : Finds cs t (elementType (opened cs ++ t.text ++ tail)) := by
  have hplain : ∀ s, (∀ d ∈ s, isBlank d = false ∧ d ≠ '|') →
      ∀ d ∈ opened cs ++ s, isBlank d = false ∧ d ≠ '|' := fun s hs =>
    List.forall_mem_append.mpr
      ⟨fun d hd => ⟨(plain_opened hcs d hd).1, (plain_opened hcs d hd).2.1⟩, hs⟩
  rw [elementType_eq_elementOf]
  have hfound := hread cs hcs 0
  rw [brackets, List.append_nil] at hfound
  cases t with
  | name n =>
    have hend : ¬ ['[', ']'] <:+ opened cs ++ n.text := by
      intro hend
      rcases List.mem_append.mp (hend.subset (List.mem_cons_of_mem _ List.mem_cons_self)) with h | h
      · exact (plain_opened hcs _ h).2.2.2 rfl
      · exact (plain_of_isNameChar (n.isNameChar_of_mem _ h)).2.2.2 rfl
    rw [singleType_append (hplain _ (Wrapped.plain_text h)) htail hend]
    exact hfound
  | array element =>
    rw [Wrapped.text, ← List.append_assoc,
      singleType_array_append (hplain _ (Wrapped.plain_text (t := element) h)) htail]
    exact hfound
  | container c mem argument nulls =>
    have hend : ¬ ['[', ']'] <:+ opened cs ++ (Wrapped.container c mem argument nulls).text := by
      rintro ⟨s, hs⟩
      rw [Wrapped.text, ← List.cons_append, ← List.append_assoc, ← List.append_assoc] at hs
      have hs' : s ++ ['['] ++ [']'] = _ := (List.append_assoc _ _ _).trans hs
      have hlast := List.append_inj_right' hs' rfl
      exact absurd hlast (by decide)
    rw [singleType_append (hplain _ (Wrapped.plain_text h)) htail hend]
    exact hfound

theorem isRead_name (n : TypeName) : IsRead (.name n) := by
  intro cs hcs k
  have hblank : ∀ d ∈ brackets k, isBlank d = false := fun d hd => by
    rcases mem_brackets hd with rfl | rfl <;> rfl
  cases cs with
  | nil =>
    have hhead : ∀ d ∈ (brackets k).head?, d = '<' ∨ d = '[' := by
      cases k with
      | zero => exact fun d hd => absurd hd (by simp [brackets])
      | succ k => exact fun d hd => Or.inr (Option.some.inj hd).symm
    have hbase : baseType (n.text ++ brackets k) = n.text :=
      baseType_append n.isNameChar_of_mem hblank hhead
    refine ⟨fun _ => ?_, fun h => absurd rfl h⟩
    change elementOf (n.text ++ brackets k) = n.text
    rw [elementOf_of_not_container (by rw [hbase]; exact n.not_container), hbase]
  | cons c cs =>
    have hplain : ∀ d ∈ n.text ++ brackets k, isBlank d = false ∧ d ≠ '>' := by
      intro d hd
      rcases List.mem_append.mp hd with hd | hd
      · have hname := plain_of_isNameChar (n.isNameChar_of_mem d hd)
        exact ⟨hname.1, hname.2.2.1⟩
      · rcases mem_brackets hd with rfl | rfl <;> decide
    exact ⟨fun h => absurd h (List.cons_ne_nil c cs), fun _ => elementOf_opened hcs hplain⟩

/-- The text within a container is read within one container less. -/
theorem isRead_container {c : String} (mem : c ∈ containerTypes) {argument : Wrapped}
    (h : argument.alternativesAreOuter = true) (hread : IsRead argument.unbracketed) :
    IsRead (.container c mem argument 0) := by
  intro cs hcs k
  have hblank : ∀ d ∈ argument.text, isBlank d = false := fun d hd =>
    (Wrapped.plain_text h d hd).1
  rw [Wrapped.text_container_append, opened_append_container, alternatives, List.nil_append]
  cases cs with
  | nil =>
    have hc : [c] ⊆ containerTypes := List.cons_subset.mpr ⟨mem, List.nil_subset _⟩
    rw [List.nil_append, elementOf_opened_append hc hblank]
    have hfound := finds_elementType (List.nil_subset _) h hread (Or.inl rfl)
    rwa [List.append_nil] at hfound
  | cons c' cs =>
    -- the closing bracket of the container is taken for that of the outermost one
    have hcs' : c' :: (cs ++ [c]) ⊆ containerTypes :=
      List.append_subset.mpr ⟨hcs, List.cons_subset.mpr ⟨mem, List.nil_subset _⟩⟩
    rw [List.cons_append, elementOf_opened_append hcs' hblank]
    have hfound := finds_elementType (List.subset_of_cons_subset hcs') h hread (Or.inl rfl)
    rw [List.append_nil] at hfound
    exact ⟨fun hnil => absurd hnil (List.cons_ne_nil c' cs), fun _ => hfound.2 (by simp)⟩

/-- A type without alternatives within it is read to the end, and so is what it is an array of. -/
theorem isRead {t : Wrapped} (h : t.alternativesAreOuter = true) :
    IsRead t ∧ IsRead t.unbracketed := by
  induction t with
  | name n => exact ⟨isRead_name n, isRead_name n⟩
  | array element ih =>
    rw [Wrapped.alternativesAreOuter] at h
    refine ⟨fun cs hcs k => ?_, (ih h).1⟩
    rw [Wrapped.text, List.append_assoc]
    exact (ih h).1 cs hcs (k + 1)
  | container c mem argument nulls ih =>
    obtain ⟨rfl, hargument⟩ := Wrapped.alternativesAreOuter_container.mp h
    have hread := isRead_container mem hargument (ih hargument).2
    exact ⟨hread, hread⟩

/-! ## 5. What is found -/

/-- An alternative within a container leaves the containers around it open. -/
theorem exists_opened {t : Wrapped} (h : t.alternativesAreOuter = false) (rest : List Char) :
    ∃ (cs : List String) (inner : Wrapped) (tail : List Char),
      cs ≠ [] ∧ cs ⊆ containerTypes ∧ inner.alternativesAreOuter = true ∧ IsTail tail ∧
        t.text ++ rest = opened cs ++ inner.text ++ tail := by
  induction t generalizing rest with
  | name n => exact absurd h.symm Bool.false_ne_true
  | array element ih =>
    obtain ⟨cs, inner, tail, hne, hcs, hinner, htail, htext⟩ := ih h ('[' :: ']' :: rest)
    exact ⟨cs, inner, tail, hne, hcs, hinner, htail, by rw [← htext]; simp [Wrapped.text]⟩
  | container c mem argument nulls ih =>
    rw [Wrapped.text_container_append]
    cases hargument : argument.alternativesAreOuter with
    | true =>
      -- no alternative stands before these ones, so the text is cut within this container
      have hnulls : nulls ≠ 0 := by
        rintro rfl
        simp [Wrapped.alternativesAreOuter, hargument] at h
      refine ⟨[c], argument, alternatives nulls ++ '>' :: rest, List.cons_ne_nil _ _,
        List.cons_subset.mpr ⟨mem, List.nil_subset _⟩, hargument,
        isTail_alternatives_append hnulls _, ?_⟩
      simp [opened]
    | false =>
      obtain ⟨cs, inner, tail, -, hcs, hinner, htail, htext⟩ :=
        ih hargument (alternatives nulls ++ '>' :: rest)
      refine ⟨c :: cs, inner, tail, List.cons_ne_nil _ _, List.cons_subset.mpr ⟨mem, hcs⟩,
        hinner, htail, ?_⟩
      rw [htext, List.append_assoc, List.append_assoc, opened_cons_append]

/-- **Taking wrappers off comes to an end, and finds the type that is meant exactly if no
alternative stands within a container.** -/
theorem elementType_text_iff (type : List Char) (t : Wrapped) (nulls : Nat) :
    (∃ inner ∈ StateTransition.eval argument? type,
      elementType type = baseType (singleType inner)) ∧
    (elementType (t.text ++ alternatives nulls) = t.core.text ↔
      t.alternativesAreOuter = true) := by
  refine ⟨?_, fun hfound => ?_, fun h => ?_⟩
  · obtain ⟨inner, hinner⟩ := exists_mem_eval (fun _ _ => length_lt_of_argument?) type
    exact ⟨inner, hinner, elementType_of_mem_eval hinner⟩
  · by_contra houter
    obtain ⟨cs, inner, tail, hne, hcs, hinner, htail, htext⟩ :=
      exists_opened (Bool.not_eq_true _ ▸ houter) (alternatives nulls)
    have hcontainer := (finds_elementType hcs hinner (isRead hinner).2 htail).2 hne
    rw [← htext, hfound, ← List.contains_iff_mem, t.core.not_container] at hcontainer
    exact Bool.false_ne_true hcontainer
  · have hfinds := finds_elementType (List.nil_subset _) h (isRead h).2 (isTail_alternatives nulls)
    exact hfinds.1 rfl

/-- **A collection of what may be `null` is taken for a collection of collections.** -/
theorem not_elementType_nullable : ¬ ∀ (t : Wrapped) (nulls : Nat),
    elementType (t.text ++ alternatives nulls) = t.core.text := by
  intro h
  have hsingle : singleType "Collection<Task | null>".toList = "Collection<Task".toList := by decide
  have hinner : between? '<' '>' "Collection<Task".toList = none := by decide
  have hfound : elementType "Collection<Task | null>".toList = "Collection".toList := by
    rw [elementType_eq_elementOf, elementOf, hsingle, if_pos (by decide), hinner]
    decide
  have htask := h (.container "Collection" (by decide)
    (.name ⟨"Task".toList, List.all_eq_true.mp (by decide), by decide⟩) 1) 0
  exact absurd (hfound.symm.trans htask) (by decide)

end Codemap.Entities.EcmaScript
