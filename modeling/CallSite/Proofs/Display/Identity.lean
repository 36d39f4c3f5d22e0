import CallSite.Proofs.Display.Layout

/-! Displays identify trees. The opening line of a well-formed tree tells its kind and everything
that it says itself; what follows tells its children, one after the other; and the two together make
up the tree, since only positions at the end can be left out. -/

namespace CallSite.Node
open Text
variable {a b t : Node} {r u : List Char}

/-- A tree without its children. -/
def hull : Node → Node
  | binary op .. => binary op nothing nothing
  | call line name _ => call line name []
  | block _ => block []
  | declare line x _ => declare line x nothing
  | assign line x _ => assign line x nothing
  | branch .. => branch nothing nothing nothing
  | loop .. => loop nothing nothing
  | exit _ => exit nothing
  | function line name params _ => function line name params nothing
  | program _ => program nothing
  | t => t

theorem fields_hull (t : Node) : t.hull.fields = t.fields := by
  cases t <;> rfl

/-- What follows the plain fields: a bracket, or the first child on the next line. -/
def EndsFields (r : List Char) : Prop :=
  ∃ v, r = ')' :: v ∨ r = '\n' :: v ∨ r = ',' :: '\n' :: v

theorem EndsFields.head (h : EndsFields r) : ∃ c v, r = c :: v ∧ isNumeral c = false := by
  obtain ⟨v, rfl | rfl | rfl⟩ := h
  · exact ⟨')', v, rfl, by decide⟩
  · exact ⟨'\n', v, rfl, by decide⟩
  · exact ⟨',', '\n' :: v, rfl, by decide⟩

/-- A further field has a space behind its comma. -/
theorem EndsFields.ne_field (h : EndsFields r) (v : List Char) : r ≠ ',' :: ' ' :: v := by
  obtain ⟨w, rfl | rfl | rfl⟩ := h <;> simp

theorem endsFields_closing (d : Int) (fields : List String) (children : List Node)
    (r : List Char) :
    EndsFields (Line.closing d fields (children.map (shown (d + 1))) ++ r) := by
  cases children with
  | nil => exact ⟨r, .inl rfl⟩
  | cons c cs =>
    obtain ⟨v, below⟩ : ∃ v, shown (d + 1) c = '\n' :: v :=
      ⟨_, (newline_cons_display (d + 1) c).symm⟩
    simp only [List.map_cons, Line.closing, below, List.append_assoc, List.cons_append]
    split
    · exact ⟨_, .inr (.inl rfl)⟩
    · exact ⟨_, .inr (.inr rfl)⟩

theorem kind_ne_bracket (t : Node) : ∀ c ∈ t.kind.toList, c ≠ '(' := by
  cases t <;> simp [kind]

theorem opening_append_kind
    (h : Line.opening a.kind a.fields ++ r = Line.opening b.kind b.fields ++ u) :
    a.kind = b.kind ∧
      (", ".intercalate a.fields).toList ++ r = (", ".intercalate b.fields).toList ++ u := by
  simp only [Line.opening, List.append_assoc, List.cons_append] at h
  obtain ⟨kind, -, rest⟩ := append_cons_inj (kind_ne_bracket a) (kind_ne_bracket b) (by simp)
    (by simp) h
  exact ⟨String.toList_inj.1 kind, rest⟩

theorem symbol_inj {f g : BinaryOperator} (h : f.symbol = g.symbol) : f = g := by
  have read := BinaryOperator.ofSymbol?_symbol f
  rw [h, BinaryOperator.ofSymbol?_symbol] at read
  exact (Option.some.inj read).symm

theorem value_append_inj {v w : Int} (hr : EndsFields r) (hu : EndsFields u)
    (h : (", ".intercalate [field "value" (toString v)]).toList ++ r =
      (", ".intercalate [field "value" (toString w)]).toList ++ u) : v = w ∧ r = u := by
  obtain ⟨c, r, rfl, hc⟩ := hr.head
  obtain ⟨d, u, rfl, hd⟩ := hu.head
  simp only [toList_intercalate_cons, field, String.toList_append, List.append_assoc,
    behind_nil, List.nil_append, List.append_cancel_left_eq] at h
  obtain ⟨rfl, rfl, rfl⟩ := numeral_append_inj hc hd h
  exact ⟨rfl, rfl⟩

theorem symbol_append_inj {f g : BinaryOperator}
    (h : (", ".intercalate [field "operator" ("'" ++ f.symbol ++ "'")]).toList ++ r =
      (", ".intercalate [field "operator" ("'" ++ g.symbol ++ "'")]).toList ++ u) :
    f = g ∧ r = u := by
  have plain : ∀ op : BinaryOperator, ∀ c ∈ op.symbol.toList, c ≠ apostrophe := by
    intro op
    cases op <;> simp [BinaryOperator.symbol, apostrophe]
  have mark : "'".toList = [apostrophe] := rfl
  simp only [toList_intercalate_cons, field, String.toList_append, List.append_assoc,
    behind_nil, List.nil_append, List.append_cancel_left_eq, mark, List.cons_append] at h
  obtain ⟨symbol, -, rest⟩ := append_cons_inj (plain f) (plain g) (by simp) (by simp)
    (List.cons.inj h).2
  exact ⟨symbol_inj (String.toList_inj.1 symbol), rest⟩

theorem toList_place_append (line : Int) (x : String) (more : List String) :
    (", ".intercalate (place line x ++ more)).toList =
      "line=".toList ++ ((toString line).toList ++ ',' :: (" name=".toList ++
        ((quote x).toList ++ behind ", " more))) := by
  simp only [place, List.cons_append, List.nil_append, toList_intercalate_cons, field,
    String.toList_append, behind_cons, List.append_assoc]
  rfl

theorem place_append_inj {i j : Int} {x y : String} (more others : List String)
    (h : (", ".intercalate (place i x ++ more)).toList ++ r =
      (", ".intercalate (place j y ++ others)).toList ++ u) :
    i = j ∧ x = y ∧ behind ", " more ++ r = behind ", " others ++ u := by
  simp only [toList_place_append, List.append_assoc, List.append_cancel_left_eq,
    List.cons_append] at h
  obtain ⟨rfl, -, tail⟩ := numeral_append_inj (by decide) (by decide) h
  rw [List.append_cancel_left_eq] at tail
  obtain ⟨rfl, rest⟩ := tells_quote x y _ _ tail
  exact ⟨rfl, rfl, rest⟩

theorem params_append_inj {ps qs : List String} (hr : EndsFields r) (hu : EndsFields u)
    (h : behind ", " (paramsField ps) ++ r = behind ", " (paramsField qs) ++ u) :
    ps = qs ∧ r = u := by
  cases ps with
  | nil =>
    cases qs with
    | nil => exact ⟨rfl, h⟩
    | cons q qs => exact absurd h (hr.ne_field _)
  | cons p ps =>
    cases qs with
    | nil => exact absurd h.symm (hu.ne_field _)
    | cons q qs =>
      simp only [paramsField, List.isEmpty_cons, Bool.false_eq_true, if_false, behind_cons,
        behind_nil, List.append_nil, field, names, String.toList_append, List.append_assoc,
        List.append_cancel_left_eq] at h
      exact tells_group (p :: ps) (q :: qs) r u h

/-- The opening line tells a tree apart from every one that differs in more than its children. -/
theorem opening_append_inj (ha : a.isNode = true) (hr : EndsFields r) (hu : EndsFields u)
    (h : Line.opening a.kind a.fields ++ r = Line.opening b.kind b.fields ++ u) :
    a.hull = b.hull ∧ r = u := by
  obtain ⟨same, text⟩ := opening_append_kind h
  cases a with
  | nothing | integer | text => cases ha
  | literal v =>
    cases b with
    | literal w =>
      obtain ⟨rfl, rest⟩ := value_append_inj hr hu text
      exact ⟨rfl, rest⟩
    | _ => simp [kind] at same
  | binary f =>
    cases b with
    | binary g =>
      obtain ⟨rfl, rest⟩ := symbol_append_inj text
      exact ⟨rfl, rest⟩
    | _ => simp [kind] at same
  | reference i x =>
    cases b with
    | reference j y =>
      obtain ⟨rfl, rfl, rest⟩ := place_append_inj [] [] text
      exact ⟨rfl, rest⟩
    | _ => simp [kind] at same
  | call i x =>
    cases b with
    | call j y =>
      obtain ⟨rfl, rfl, rest⟩ := place_append_inj [] [] text
      exact ⟨rfl, rest⟩
    | _ => simp [kind] at same
  | declare i x =>
    cases b with
    | declare j y =>
      obtain ⟨rfl, rfl, rest⟩ := place_append_inj [] [] text
      exact ⟨rfl, rest⟩
    | _ => simp [kind] at same
  | assign i x =>
    cases b with
    | assign j y =>
      obtain ⟨rfl, rfl, rest⟩ := place_append_inj [] [] text
      exact ⟨rfl, rest⟩
    | _ => simp [kind] at same
  | function i x ps =>
    cases b with
    | function j y qs =>
      obtain ⟨rfl, rfl, tail⟩ := place_append_inj _ _ text
      obtain ⟨rfl, rest⟩ := params_append_inj hr hu tail
      exact ⟨rfl, rest⟩
    | _ => simp [kind] at same
  | block =>
    cases b with
    | block => exact ⟨rfl, text⟩
    | _ => simp [kind] at same
  | branch =>
    cases b with
    | branch => exact ⟨rfl, text⟩
    | _ => simp [kind] at same
  | loop =>
    cases b with
    | loop => exact ⟨rfl, text⟩
    | _ => simp [kind] at same
  | exit =>
    cases b with
    | exit => exact ⟨rfl, text⟩
    | _ => simp [kind] at same
  | program =>
    cases b with
    | program => exact ⟨rfl, text⟩
    | _ => simp [kind] at same

theorem closing_nil_ne (d : Int) (fields : List String) (c : Node) (cs : List Node) :
    Line.closing d fields [] ++ r ≠
      Line.closing d fields ((c :: cs).map (shown (d + 1))) ++ u := by
  rw [List.map_cons, ← newline_cons_display]
  simp only [Line.closing]
  split <;> simp

/-- What stands behind the fields tells the children apart, if each one is told apart. -/
theorem closing_append_inj {d : Int} {fields : List String} {cs es : List Node}
    (told : ∀ c ∈ cs, ∀ e ∈ es, Tells (shown (d + 1)) c e)
    (h : Line.closing d fields (cs.map (shown (d + 1))) ++ r =
      Line.closing d fields (es.map (shown (d + 1))) ++ u) : cs = es ∧ r = u := by
  cases cs with
  | nil =>
    cases es with
    | nil => exact ⟨rfl, (List.cons.inj h).2⟩
    | cons e es => exact absurd h (closing_nil_ne d fields e es)
  | cons c cs =>
    cases es with
    | nil => exact absurd h.symm (closing_nil_ne d fields c cs)
    | cons e es =>
      simp only [List.map_cons, Line.closing, List.append_assoc, List.append_cancel_left_eq,
        List.flatMap_map, List.cons_append] at h
      obtain ⟨rfl, tail⟩ := told c (by simp) e (by simp) _ _ h
      have others : ∀ c ∈ cs, ∀ e ∈ es, Tells (fun t => ',' :: shown (d + 1) t) c e := by
        intro c hc e he r u same
        exact told c (List.mem_cons_of_mem _ hc) e (List.mem_cons_of_mem _ he) r u
          (List.cons.inj same).2
      obtain ⟨rfl, rest⟩ := Tells.flatMap others (by simp) tail
      exact ⟨rfl, by simpa using rest⟩

/-- A tree with other children. A last position that has no child is left out. -/
def withChildren : Node → List Node → Node
  | binary op _ _, [l, r] => binary op l r
  | call line name _, args => call line name args
  | block _, statements => block statements
  | declare line x _, [] => declare line x nothing
  | declare line x _, [e] => declare line x e
  | assign line x _, [e] => assign line x e
  | branch .., [c, y] => branch c y nothing
  | branch .., [c, y, n] => branch c y n
  | loop .., [c, b] => loop c b
  | exit _, [e] => exit e
  | function line name params _, [b] => function line name params b
  | program _, [b] => program b
  | t, _ => t

/-- A tree that fits together is made of its hull and its children. -/
theorem withChildren_children (h : t.fits = true) : t.hull.withChildren t.children = t := by
  cases t with
  | literal | reference | nothing | integer | text => rfl
  | call line name args =>
    have nodes : ∀ p ∈ args, p.isNode = true := fun p mem =>
      isNode_of_isExpression (List.all_eq_true.1 h p mem)
    rw [children, parts, List.filter_eq_self.2 nodes]
    rfl
  | block ss =>
    have nodes : ∀ p ∈ ss, p.isNode = true := fun p mem =>
      isNode_of_isStatement (List.all_eq_true.1 h p mem)
    rw [children, parts, List.filter_eq_self.2 nodes]
    rfl
  | declare line x e =>
    rcases nothing_or_isNode h (List.mem_singleton_self e) with rfl | node
    · rfl
    · simp [children, parts, hull, withChildren, node]
  | branch c y n =>
    have last := nothing_or_isNode (p := n) h (by simp [parts])
    simp only [fits, Bool.and_eq_true] at h
    rcases last with rfl | node
    · have absent : isNode nothing = false := rfl
      simp [children, parts, hull, withChildren, isNode_of_isExpression h.1.1,
        isNode_of_isBlock h.1.2, absent]
    · simp [children, parts, hull, withChildren, isNode_of_isExpression h.1.1,
        isNode_of_isBlock h.1.2, node]
  | binary op l r =>
    simp only [fits, Bool.and_eq_true] at h
    simp [children, parts, hull, withChildren, isNode_of_isExpression h.1,
      isNode_of_isExpression h.2]
  | loop c b =>
    simp only [fits, Bool.and_eq_true] at h
    simp [children, parts, hull, withChildren, isNode_of_isExpression h.1, isNode_of_isBlock h.2]
  | assign line x e =>
    simp [children, parts, hull, withChildren, isNode_of_isExpression h]
  | exit e => simp [children, parts, hull, withChildren, isNode_of_isExpression h]
  | function line name ps b => simp [children, parts, hull, withChildren, isNode_of_isBlock h]
  | program b => simp [children, parts, hull, withChildren, isNode_of_isBlock h]

theorem sizeOf_lt_of_mem_children {c : Node} (h : c ∈ t.children) : sizeOf c < sizeOf t :=
  sizeOf_lt_of_mem_parts (List.mem_filter.1 h).1

/-- The text of a well-formed tree tells it apart from every other one, in front of any text. -/
theorem tells_shown {a b : Node} (ha : a.isNode = true) (wa : a.isWellFormed = true)
    (hb : b.isNode = true) (wb : b.isWellFormed = true) (d : Int) : Tells (shown d) a b := by
  -- The induction is on the size of the first tree: its children are told apart one level deeper.
  intro r u same
  obtain ⟨fa, pa⟩ := isWellFormed_iff.1 wa
  obtain ⟨fb, pb⟩ := isWellFormed_iff.1 wb
  simp only [shown_eq d fa ha, shown_eq d fb hb, List.cons_append, List.cons.injEq, true_and,
    List.append_assoc, List.append_cancel_left_eq] at same
  obtain ⟨hull, tail⟩ := opening_append_inj ha (endsFields_closing d _ _ r)
    (endsFields_closing d _ _ u) same
  have told : ∀ c ∈ a.children, ∀ e ∈ b.children, Tells (shown (d + 1)) c e := by
    intro c hc e he
    have smaller := sizeOf_lt_of_mem_children hc
    obtain ⟨inA, nodeC⟩ := List.mem_filter.1 hc
    obtain ⟨inB, nodeE⟩ := List.mem_filter.1 he
    exact tells_shown nodeC (pa c inA) nodeE (pb e inB) (d + 1)
  rw [← fields_hull a, hull, fields_hull b] at tail
  obtain ⟨children, rest⟩ := closing_append_inj told tail
  rw [← withChildren_children fa, ← withChildren_children fb, hull, children]
  exact ⟨rfl, rest⟩
termination_by sizeOf a

theorem bare_of_isNode (h : t.isNode = true) : t.bare = t.display 0 := by
  cases t with
  | nothing | integer | text => cases h
  | _ => rfl

/-- The text of a well-formed tree identifies it: two have the same text exactly if they have the
same kinds, names, lines, values and parts, whatever the names are. -/
theorem bare_eq_bare_iff (ha : a.isNode = true) (wa : a.isWellFormed = true)
    (hb : b.isNode = true) (wb : b.isWellFormed = true) : a.bare = b.bare ↔ a = b := by
  constructor
  · intro same
    rw [bare_of_isNode ha, bare_of_isNode hb] at same
    have shown : a.shown 0 ++ [] = b.shown 0 ++ [] := by
      rw [← newline_cons_display, ← newline_cons_display, same]
    exact (tells_shown ha wa hb wb 0 [] [] shown).1
  · rintro rfl
    rfl

/-- A name that imitates the text of an argument does not make a call of it. -/
theorem bare_eq_bare_iff_imitated :
    let a : Node := .call 1 "f" [.reference 2 "x"]
    let b : Node := .call 1 "f',\n    VariableRef(line=2, name='x" []
    a.isNode ∧ a.isWellFormed ∧ b.isNode ∧ b.isWellFormed ∧ a.bare ≠ b.bare := by
  intro a b
  have wa : a.isWellFormed = true := by decide
  have wb : b.isWellFormed = true := by decide
  refine ⟨rfl, wa, rfl, wb, fun same => ?_⟩
  exact absurd ((bare_eq_bare_iff rfl wa rfl wb).1 same) (by decide)

end CallSite.Node
