/-
# Options of the diagram of types only reveal

Options decide for each member by its visibility whether it is listed, and for each arrow by the
identifier at its upper end whether it is drawn.  Neither decision looks at what else is written, so
where one pair of options lets through what another does, its pieces are those of the other with
more in between (`pieces_sublist`).  Arrows that are not drawn are left out before repetitions are,
and as equal arrows are drawn or not alike, the first of them is the one that stays
(`Order.distinct_filter`).

A member's text starts with the sign of its visibility, so no private one is hidden among the
others.  Arrows with different ends or signs are different lines (`arrow_text_inj`).

Main statement: `pieces_onlyReveal`.
-/
import Codemap.Diagram.Types
import Codemap.Proofs.Diagram.Basic
import Codemap.Proofs.Order.Distinct
import Mathlib.Data.List.Flatten

namespace Codemap.Diagram.Types

variable {o o' : Options} {files : List FileFacts} {t : TypeDecl}

/-! ## 1. What options let through -/

/-- The second options let through all that the first ones do. -/
structure Options.Extends (o o' : Options) : Prop where
  includePrivate : o.includePrivate → o'.includePrivate
  showExternal : o.showExternal → o'.showExternal

theorem Options.extends_includePrivate (e : Bool) : Options.Extends ⟨false, e⟩ ⟨true, e⟩ :=
  ⟨fun _ => rfl, id⟩

theorem Options.extends_showExternal (p : Bool) : Options.Extends ⟨p, false⟩ ⟨p, true⟩ :=
  ⟨id, fun _ => rfl⟩

theorem Options.Extends.lists (h : o.Extends o') (v : Visibility) (hv : o.lists v) :
    o'.lists v := by
  rw [Options.lists, Bool.or_eq_true] at hv ⊢
  exact hv.imp_left h.includePrivate

theorem Options.Extends.draws (h : o.Extends o') (known : List String) (x : Piece)
    (hx : o.draws known x) : o'.draws known x := by
  cases x with
  | arrow parent sign child =>
    simp only [Options.draws, Bool.or_eq_true] at hx ⊢
    exact hx.imp_left h.showExternal
  | header => rfl
  | opening name => rfl
  | stereotype text => rfl
  | member text => rfl
  | closing => rfl

theorem filter_sublist_filter {α : Type} {p q : α → Bool} (h : ∀ x, p x → q x) (xs : List α) :
    (xs.filter p).Sublist (xs.filter q) :=
  List.monotone_filter_right xs fun x => Bool.le_iff_imp.mpr (h x)

/-! ## 2. More pieces -/

/-- The members that are listed stand in the same order, with more between them. -/
theorem block_sublist (h : o.Extends o') (t : TypeDecl) : (block o t).Sublist (block o' t) := by
  have hproperties := filter_sublist_filter (fun p : Property => h.lists p.visibility) t.properties
  have hmethods := filter_sublist_filter (fun m : Method => h.lists m.visibility) t.methods
  unfold block
  exact (((List.Sublist.refl _).append (hproperties.map _)).append (hmethods.map _)).append
    (.refl _)

theorem arrows_sublist (h : o.Extends o') (known : List String) (xs : List Piece) :
    (Order.distinct (xs.filter (o.draws known))).Sublist
      (Order.distinct (xs.filter (o'.draws known))) := by
  rw [Order.distinct_filter, Order.distinct_filter]
  exact filter_sublist_filter (h.draws known) _

/-- **Options that let more through** write the same pieces, with more in between. -/
theorem pieces_sublist (h : o.Extends o') (files : List FileFacts) :
    (pieces o files).Sublist (pieces o' files) := by
  have hblocks := List.Sublist.flatMap_right (drawn files) fun t _ => block_sublist h t
  exact ((List.Sublist.refl _).append hblocks).append (arrows_sublist h _ _)

/-! ## 3. Which pieces there are -/

/-- A piece is an arrow. -/
def Piece.isArrow : Piece → Bool
  | arrow _ _ _ => true
  | _ => false

theorem isArrow_of_mem_block {x : Piece} (hx : x ∈ block o t) : x.isArrow = false := by
  simp only [block, List.mem_append, List.mem_singleton, Option.mem_toList, List.mem_map,
    Option.map_eq_some_iff] at hx
  rcases hx with (((rfl | ⟨s, -, rfl⟩) | ⟨p, -, rfl⟩) | ⟨m, -, rfl⟩) | rfl <;> rfl

/-- An arrow leads from the identifier of a supertype to that of the type. -/
theorem exists_of_mem_arrows {x : Piece} (hx : x ∈ arrows t) :
    ∃ parent sign, sign.toList.length = 4 ∧
      x = .arrow (identifier parent) sign (identifier t.name) := by
  rcases List.mem_append.mp hx with hx | hx
  · obtain ⟨parent, -, rfl⟩ := List.mem_map.mp hx
    exact ⟨_, "<|--", rfl, rfl⟩
  · obtain ⟨parent, -, rfl⟩ := List.mem_map.mp hx
    exact ⟨_, "<|..", rfl, rfl⟩

theorem isArrow_of_mem_arrows {x : Piece} (hx : x ∈ arrows t) : x.isArrow = true := by
  obtain ⟨parent, sign, -, rfl⟩ := exists_of_mem_arrows hx
  rfl

/-- The arrows that are drawn. -/
def drawnArrows (o : Options) (files : List FileFacts) : List Piece :=
  Order.distinct (((drawn files).flatMap arrows).filter
    (o.draws ((drawn files).map fun t => identifier t.name)))

theorem pieces_eq (o : Options) (files : List FileFacts) :
    pieces o files = .header :: (drawn files).flatMap (block o) ++ drawnArrows o files := rfl

theorem mem_drawnArrows {x : Piece} (hx : x ∈ drawnArrows o files) :
    (∃ t ∈ drawn files, x ∈ arrows t) ∧
      o.draws ((drawn files).map fun t => identifier t.name) x := by
  obtain ⟨hx, hdraws⟩ := List.mem_filter.mp (Order.mem_distinct.mp hx)
  exact ⟨List.mem_flatMap.mp hx, hdraws⟩

theorem isArrow_of_mem_blocks {x : Piece} (hx : x ∈ (drawn files).flatMap (block o)) :
    x.isArrow = false := by
  obtain ⟨t, -, hx⟩ := List.mem_flatMap.mp hx
  exact isArrow_of_mem_block hx

theorem isArrow_of_mem_drawnArrows {x : Piece} (hx : x ∈ drawnArrows o files) :
    x.isArrow = true := by
  obtain ⟨⟨t, -, hx⟩, -⟩ := mem_drawnArrows hx
  exact isArrow_of_mem_arrows hx

theorem filter_isArrow_pieces (o : Options) (files : List FileFacts) :
    (pieces o files).filter Piece.isArrow = drawnArrows o files := by
  have hblocks : ((drawn files).flatMap (block o)).filter Piece.isArrow = [] := by
    rw [List.filter_eq_nil_iff]
    intro x hx
    simp [isArrow_of_mem_blocks hx]
  have harrows : (drawnArrows o files).filter Piece.isArrow = drawnArrows o files := by
    rw [List.filter_eq_self]
    exact fun x hx => isArrow_of_mem_drawnArrows hx
  rw [pieces_eq, List.filter_append, List.filter_cons_of_neg (by decide), hblocks, harrows,
    List.nil_append]

theorem mem_block_of_mem_pieces {x : Piece} (hx : x ∈ pieces o files) (hheader : x ≠ .header)
    (harrow : x.isArrow = false) : ∃ t ∈ drawn files, x ∈ block o t := by
  rw [pieces_eq, List.mem_append, List.mem_cons] at hx
  rcases hx with (hx | hx) | hx
  · exact absurd hx hheader
  · exact List.mem_flatMap.mp hx
  · rw [isArrow_of_mem_drawnArrows hx] at harrow
    exact absurd harrow Bool.noConfusion

theorem mem_pieces_of_mem_block {x : Piece} (ht : t ∈ drawn files) (hx : x ∈ block o t) :
    x ∈ pieces o files :=
  List.mem_append_left _ (List.mem_append_right _ (List.mem_flatMap.mpr ⟨t, ht, hx⟩))

/-! ## 4. Private members -/

/-- The text of a member starts with the sign of its visibility. -/
theorem isPrefix_propertyText (p : Property) :
    (sign p.visibility).toList <+: (propertyText p).toList := by
  simp [propertyText]

theorem isPrefix_methodText (m : Method) :
    (sign m.visibility).toList <+: (methodText m).toList := by
  simp [methodText]

/-- No text starts with the signs of two visibilities. -/
theorem eq_of_isPrefix_sign {v w : Visibility} {cs : List Char} (hv : (sign v).toList <+: cs)
    (hw : (sign w).toList <+: cs) : v = w := by
  have hlen : ∀ v, (sign v).toList.length = 1 := by intro v; cases v <;> rfl
  have heq : (sign v).toList = (sign w).toList := by
    obtain ⟨r, hr⟩ := hv
    obtain ⟨s, hs⟩ := hw
    exact (List.append_inj (hr.trans hs.symm) ((hlen v).trans (hlen w).symm)).1
  revert heq
  cases v <;> cases w <;> decide

theorem lists_iff_ne_private {v : Visibility} (ho : o.includePrivate = false) :
    o.lists v ↔ v ≠ .privateAccess := by
  rw [Options.lists, ho, Bool.false_or, bne_iff_ne]

/-- **The members that are written** are those of the types that are drawn which the options
list. -/
theorem member_mem_pieces_iff {s : String} : .member s ∈ pieces o files ↔
    ∃ t ∈ drawn files, (∃ p ∈ t.properties, o.lists p.visibility ∧ propertyText p = s) ∨
      ∃ m ∈ t.methods, o.lists m.visibility ∧ methodText m = s := by
  have hblock : ∀ t, .member s ∈ block o t ↔
      (∃ p ∈ t.properties, o.lists p.visibility ∧ propertyText p = s) ∨
        ∃ m ∈ t.methods, o.lists m.visibility ∧ methodText m = s := by
    intro t
    simp [block, and_assoc]
  constructor
  · intro hs
    obtain ⟨t, ht, hs⟩ := mem_block_of_mem_pieces hs Piece.noConfusion rfl
    exact ⟨t, ht, (hblock t).mp hs⟩
  · rintro ⟨t, ht, hs⟩
    exact mem_pieces_of_mem_block ht ((hblock t).mpr hs)

/-- **No text of a private member is written** unless private members are asked for. -/
theorem member_not_mem {s : String} (ho : o.includePrivate = false)
    (hs : (sign .privateAccess).toList <+: s.toList) : .member s ∉ pieces o files := by
  have hunlisted : ∀ v, o.lists v → ¬ (sign v).toList <+: s.toList := by
    intro v hv hsign
    exact (lists_iff_ne_private ho).mp hv (eq_of_isPrefix_sign hsign hs)
  rw [member_mem_pieces_iff]
  rintro ⟨t, -, ⟨p, -, hp, rfl⟩ | ⟨m, -, hm, rfl⟩⟩
  · exact hunlisted p.visibility hp (isPrefix_propertyText p)
  · exact hunlisted m.visibility hm (isPrefix_methodText m)

/-! ## 5. Arrows -/

/-- The types that are drawn have blocks. -/
theorem opening_mem_pieces (o : Options) (ht : t ∈ drawn files) :
    .opening (identifier t.name) ∈ pieces o files :=
  mem_pieces_of_mem_block ht (by simp [block])

/-- **Both ends of an arrow have blocks** unless types from elsewhere are asked for. -/
theorem opening_mem_of_arrow_mem {parent sign child : String} (ho : o.showExternal = false)
    (h : .arrow parent sign child ∈ pieces o files) :
    .opening parent ∈ pieces o files ∧ .opening child ∈ pieces o files := by
  have harrow : .arrow parent sign child ∈ drawnArrows o files := by
    rw [← filter_isArrow_pieces]
    exact List.mem_filter.mpr ⟨h, rfl⟩
  obtain ⟨⟨t, ht, hx⟩, hdraws⟩ := mem_drawnArrows harrow
  constructor
  · rw [Options.draws, ho, Bool.false_or, List.contains_iff_mem] at hdraws
    obtain ⟨t', ht', rfl⟩ := List.mem_map.mp hdraws
    exact opening_mem_pieces o ht'
  · obtain ⟨_, _, -, heq⟩ := exists_of_mem_arrows hx
    obtain ⟨-, -, rfl⟩ := Piece.arrow.inj heq
    exact opening_mem_pieces o ht

/-- The line of an arrow determines its ends and its sign. -/
theorem arrow_text_inj {a s b a' s' b' : String} (ha : IsIdentifier a) (ha' : IsIdentifier a')
    (hs : s.toList.length = 4) (hs' : s'.toList.length = 4)
    (h : (Piece.arrow a s b).text = (Piece.arrow a' s' b').text) :
    Piece.arrow a s b = Piece.arrow a' s' b' := by
  have hlist : a.toList ++ ' ' :: (s.toList ++ ' ' :: b.toList) =
      a'.toList ++ ' ' :: (s'.toList ++ ' ' :: b'.toList) := by
    have := congrArg String.toList h
    simpa [Piece.text, indent] using this
  obtain ⟨rfl, hrest⟩ := ha.append_mark_inj ha' (by decide) hlist
  obtain ⟨hsign, hchild⟩ := List.append_inj hrest (hs.trans hs'.symm)
  obtain rfl := String.toList_injective hsign
  obtain rfl := String.toList_injective (List.cons.inj hchild).2
  rfl

/-- **No arrow is written twice.** -/
theorem nodup_arrows (o : Options) (files : List FileFacts) :
    (((pieces o files).filter Piece.isArrow).map Piece.text).Nodup := by
  rw [filter_isArrow_pieces]
  refine (Order.nodup_distinct _).map_on ?_
  intro x hx y hy heq
  obtain ⟨⟨t, -, hx⟩, -⟩ := mem_drawnArrows hx
  obtain ⟨⟨u, -, hy⟩, -⟩ := mem_drawnArrows hy
  obtain ⟨a, s, hs, rfl⟩ := exists_of_mem_arrows hx
  obtain ⟨a', s', hs', rfl⟩ := exists_of_mem_arrows hy
  exact arrow_text_inj (isIdentifier_identifier a) (isIdentifier_identifier a') hs hs' heq

/-! ## 6. What options change -/

/-- Options of the diagram only reveal. -/
structure OnlyReveal (files : List FileFacts) : Prop where
  /-- The pieces of the diagram are its lines. -/
  text_eq : ∀ o, text o files = ofLines ((pieces o files).map Piece.text)
  /-- With private members, or with types from elsewhere, there are only more pieces. -/
  includePrivate : ∀ e, (pieces ⟨false, e⟩ files).Sublist (pieces ⟨true, e⟩ files)
  showExternal : ∀ p, (pieces ⟨p, false⟩ files).Sublist (pieces ⟨p, true⟩ files)
  /-- Without private members the others are written, -/
  member_mem_iff : ∀ e s, .member s ∈ pieces ⟨false, e⟩ files ↔
    ∃ t ∈ drawn files,
      (∃ p ∈ t.properties, p.visibility ≠ .privateAccess ∧ propertyText p = s) ∨
        ∃ m ∈ t.methods, m.visibility ≠ .privateAccess ∧ methodText m = s
  /-- and no private one is. -/
  property_not_mem : ∀ e (p : Property), p.visibility = .privateAccess →
    .member (propertyText p) ∉ pieces ⟨false, e⟩ files
  method_not_mem : ∀ e (m : Method), m.visibility = .privateAccess →
    .member (methodText m) ∉ pieces ⟨false, e⟩ files
  /-- Without types from elsewhere both ends of each arrow have blocks. -/
  opening_mem : ∀ p parent sign child, .arrow parent sign child ∈ pieces ⟨p, false⟩ files →
    .opening parent ∈ pieces ⟨p, false⟩ files ∧ .opening child ∈ pieces ⟨p, false⟩ files
  /-- No two arrows are the same line. -/
  nodup : ∀ o, (((pieces o files).filter Piece.isArrow).map Piece.text).Nodup

/-- **Options of the diagram of types only reveal**, whatever the files. -/
theorem pieces_onlyReveal (files : List FileFacts) : OnlyReveal files where
  text_eq _ := rfl
  includePrivate e := pieces_sublist (Options.extends_includePrivate e) files
  showExternal p := pieces_sublist (Options.extends_showExternal p) files
  member_mem_iff e s := by
    have hlists : ∀ v, Options.lists ⟨false, e⟩ v ↔ v ≠ .privateAccess := fun v =>
      lists_iff_ne_private rfl
    simp only [member_mem_pieces_iff, hlists]
  property_not_mem _ p hp := member_not_mem rfl (hp ▸ isPrefix_propertyText p)
  method_not_mem _ m hm := member_not_mem rfl (hm ▸ isPrefix_methodText m)
  opening_mem _ _ _ _ := opening_mem_of_arrow_mem rfl
  nodup o := nodup_arrows o files

end Codemap.Diagram.Types
