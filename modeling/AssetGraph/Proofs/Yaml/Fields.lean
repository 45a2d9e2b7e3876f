import AssetGraph.Proofs.Yaml.Nodes
import AssetGraph.Proofs.Yaml.Scalars

/-!
# Documents in block style

A document in block style is a mapping of fields, whose values are words, lists of texts and again mappings. It has the lines that it is
written on, the tokens of these lines, and the node that it stands for; what is read from its lines is this node.
-/
namespace AssetGraph.Yaml

/-- Fields with their names. An inner mapping is written two columns further to the right than the names around it. -/
inductive Fields where
  | nil
  | word (key : Key) (value : PlainWord) (more : Fields)
  | list (key : Key) (items : List Unbroken) (more : Fields)
  | block (key : Key) (inner : Fields) (more : Fields)

variable {column : Nat} {o : Outline}

namespace Outline

theorem addLine_close (o : Outline) (l : Line) : (o.close (l.column + 1)).addLine l = o.addLine l := by
  simp only [addLine, close_close (Nat.le_refl _)]

theorem addLine_key (hmargin : o.margin = column + 1) (key : Key) (content : Content) :
    o.addLine ⟨column, some key, content⟩ = o.push (content.tokens ++ [.value, .scalar { text := key.text }, .key]) := by
  have hclose : o.close (column + 1) = o := o.close_eq_self hmargin.le
  have hopen : o.openBlock .blockMapping column = o := if_neg (by omega)
  simp only [addLine, hclose, hopen]

/-- A block that is opened and closed again leaves its tokens. -/
theorem close_push_openBlock {margin : Nat} (hmargin : o.margin ≤ margin) (hcolumn : margin ≤ column) (tokens : List Token) :
    ((o.openBlock .blockMapping column).push tokens).close margin = o.push (.blockEnd :: (tokens ++ [.blockMapping])) := by
  have hdeeper : margin < column + 1 := Nat.lt_succ_of_le hcolumn
  have hopen : o.openBlock .blockMapping column = { margins := (column + 1) :: o.margins, tokens := .blockMapping :: o.tokens } :=
    if_pos (hmargin.trans hcolumn)
  obtain ⟨margins, before⟩ := o
  cases margins with
  | nil => simp [hopen, close, push, hdeeper]
  | cons first margins =>
    have hfirst : ¬margin < first := Nat.not_lt.mpr hmargin
    simp [hopen, close, push, hdeeper, hfirst]

end Outline

namespace Fields

def itemsContent : List Unbroken → Content
  | [] => .noItems
  | _ :: _ => .nothing

def itemLines (column : Nat) (items : List Unbroken) : List Line := items.map fun item => ⟨column, none, item.content⟩

def lines (column : Nat) : Fields → List Line
  | nil => []
  | word key value more => ⟨column, some key, .plain value⟩ :: more.lines column
  | list key items more => ⟨column, some key, itemsContent items⟩ :: (itemLines column items ++ more.lines column)
  | block key inner more => ⟨column, some key, .nothing⟩ :: (inner.lines (column + 2) ++ more.lines column)

def itemTokens (items : List Unbroken) : List Token :=
  (itemsContent items).tokens.reverse ++ items.flatMap fun item => [.blockEntry, .scalar item.scalar]

def tokens : Fields → List (String × List Token)
  | nil => []
  | word key value more => (key.text, [.scalar { text := value.text }]) :: more.tokens
  | list key items more => (key.text, itemTokens items) :: more.tokens
  | block key inner more => (key.text, Node.blockTokens inner.tokens) :: more.tokens

def itemsNode (items : List Unbroken) : Node := .sequence ((items.map Unbroken.scalar).map .scalar)

def nodes : Fields → List (String × Node)
  | nil => []
  | word key value more => (key.text, .scalar { text := value.text }) :: more.nodes
  | list key items more => (key.text, itemsNode items) :: more.nodes
  | block key inner more => (key.text, .mapping (Node.entriesOf inner.nodes)) :: more.nodes

def Filled : Fields → Prop
  | nil => True
  | word _ _ more => more.Filled
  | list _ _ more => more.Filled
  | block _ inner more => inner ≠ nil ∧ inner.Filled ∧ more.Filled

variable {fields : Fields} {rest : List Line}

theorem exists_lines_cons (hfields : fields ≠ nil) (column : Nat) :
    ∃ key content more, fields.lines column = ⟨column, some key, content⟩ :: more := by
  cases fields with
  | nil => exact absurd rfl hfields
  | word => exact ⟨_, _, _, rfl⟩
  | list => exact ⟨_, _, _, rfl⟩
  | block => exact ⟨_, _, _, rfl⟩

section Tokens

/-- Items in the column of the block around them open none of their own. -/
theorem foldl_itemLines (hmargin : o.margin = column + 1) (items : List Unbroken) :
    (itemLines column items).foldl Outline.addLine o = o.push (items.flatMap fun item => [.blockEntry, .scalar item.scalar]).reverse := by
  unfold itemLines
  induction items generalizing o with
  | nil => rfl
  | cons item items ih =>
    have hclose : o.close (column + 1) = o := o.close_eq_self hmargin.le
    have hopen : o.openBlock .blockSequence column = o := if_neg (by omega)
    have hline : o.addLine ⟨column, none, item.content⟩ = o.push [.scalar item.scalar, .blockEntry] := by
      simp only [Outline.addLine, hclose, hopen, item.tokens_content, List.singleton_append]
    rw [List.map_cons, List.foldl_cons, hline, ih ((Outline.margin_push o _).trans hmargin), Outline.push_push]
    simp

/-- Fields close the deeper blocks themselves. -/
theorem close_foldl_close (fields : Fields) (column : Nat) (o : Outline) :
    ((fields.lines column).foldl Outline.addLine (o.close (column + 1))).close (column + 1) =
      ((fields.lines column).foldl Outline.addLine o).close (column + 1) := by
  by_cases hfields : fields = nil
  · subst hfields
    exact Outline.close_close (Nat.le_refl _) o
  · obtain ⟨key, content, more, hlines⟩ := exists_lines_cons hfields column
    have hfirst := o.addLine_close ⟨column, some key, content⟩
    rw [hlines, List.foldl_cons, List.foldl_cons, hfirst]

/-- The first field opens the block that it is in. -/
theorem foldl_openBlock (hfields : fields ≠ nil) (hmargin : o.margin ≤ column) :
    (fields.lines column).foldl Outline.addLine (o.openBlock .blockMapping column) = (fields.lines column).foldl Outline.addLine o := by
  obtain ⟨key, content, more, hlines⟩ := exists_lines_cons hfields column
  have hopened := Outline.margin_openBlock (hmargin.trans (Nat.le_succ _)) .blockMapping
  have hclose : o.close (column + 1) = o := o.close_eq_self (hmargin.trans (Nat.le_succ _))
  have hfirst : (o.openBlock .blockMapping column).addLine ⟨column, some key, content⟩ = o.addLine ⟨column, some key, content⟩ := by
    rw [Outline.addLine_key hopened]
    simp only [Outline.addLine, hclose]
  rw [hlines, List.foldl_cons, List.foldl_cons, hfirst]

/-- From what the lines of fields add to a block, what they add together with it. -/
theorem close_foldl_block {margin : Nat} (hfields : fields ≠ nil) (hmargin : o.margin ≤ margin) (hcolumn : margin ≤ column)
    (hadded : ((fields.lines column).foldl Outline.addLine (o.openBlock .blockMapping column)).close (column + 1) =
      (o.openBlock .blockMapping column).push (Node.entryTokens fields.tokens).reverse) :
    ((fields.lines column).foldl Outline.addLine o).close margin = o.push (Node.blockTokens fields.tokens).reverse := by
  rw [← foldl_openBlock hfields (hmargin.trans hcolumn), ← Outline.close_close (hcolumn.trans (Nat.le_succ column)), hadded,
    Outline.close_push_openBlock hmargin hcolumn]
  simp [Node.blockTokens]

theorem close_foldl_lines (hfilled : fields.Filled) (hmargin : o.margin = column + 1) :
    ((fields.lines column).foldl Outline.addLine o).close (column + 1) = o.push (Node.entryTokens fields.tokens).reverse := by
  induction fields generalizing o column with
  | nil => exact o.close_eq_self hmargin.le
  | word key value more ih =>
    rw [lines, List.foldl_cons, Outline.addLine_key hmargin, ih hfilled (by exact hmargin), Outline.push_push]
    simp [tokens, Node.entryTokens, Content.tokens]
  | list key items more ih =>
    rw [lines, List.foldl_cons, List.foldl_append, Outline.addLine_key hmargin, foldl_itemLines (by exact hmargin),
      ih hfilled (by exact hmargin), Outline.push_push, Outline.push_push]
    simp [tokens, itemTokens, Node.entryTokens]
  | block key inner more ih_inner ih =>
    obtain ⟨hne, hinner, hothers⟩ := hfilled
    have hblock {o : Outline} (hmargin : o.margin = column + 1) :
        ((inner.lines (column + 2)).foldl Outline.addLine o).close (column + 1) = o.push (Node.blockTokens inner.tokens).reverse :=
      close_foldl_block hne hmargin.le (Nat.le_succ _) (ih_inner hinner (Outline.margin_openBlock (by omega) _))
    rw [lines, List.foldl_cons, List.foldl_append, Outline.addLine_key hmargin, ← close_foldl_close, hblock (by exact hmargin),
      ih hothers (by exact hmargin), Outline.push_push, Outline.push_push]
    simp [tokens, Node.entryTokens, Content.tokens]

end Tokens

section Separation

theorem firstColumn_lines_append_le (fields : Fields) (h : Line.firstColumn rest ≤ column) :
    Line.firstColumn (fields.lines column ++ rest) ≤ column := by
  by_cases hfields : fields = nil
  · subst hfields
    exact h
  · obtain ⟨key, content, more, hlines⟩ := exists_lines_cons hfields column
    rw [hlines]
    exact Nat.le_refl column

theorem separate_itemLines_append (items : List Unbroken) (hfirst : Line.firstColumn rest ≤ column) (hrest : Line.Separate rest) :
    Line.firstColumn (itemLines column items ++ rest) ≤ column ∧ Line.Separate (itemLines column items ++ rest) := by
  induction items with
  | nil => exact ⟨hfirst, hrest⟩
  | cons item items ih => exact ⟨Nat.le_refl column, Content.endsBefore_of_lt (Nat.lt_succ_of_le ih.1) _, ih.2⟩

theorem separate_lines_append (fields : Fields) (hfirst : Line.firstColumn rest ≤ column) (hrest : Line.Separate rest) :
    Line.Separate (fields.lines column ++ rest) := by
  induction fields generalizing column rest with
  | nil => exact hrest
  | word key value more ih =>
    exact ⟨Content.endsBefore_of_lt (Nat.lt_succ_of_le (more.firstColumn_lines_append_le hfirst)) _, ih hfirst hrest⟩
  | list key items more ih =>
    have hmore := separate_itemLines_append items (more.firstColumn_lines_append_le hfirst) (ih hfirst hrest)
    rw [lines, List.cons_append, List.append_assoc]
    exact ⟨Content.endsBefore_of_lt (Nat.lt_succ_of_le hmore.1) _, hmore.2⟩
  | block key inner more ih_inner ih =>
    rw [lines, List.cons_append, List.append_assoc]
    exact ⟨True.intro, ih_inner ((more.firstColumn_lines_append_le hfirst).trans (Nat.le_add_right _ _)) (ih hfirst hrest)⟩

end Separation

theorem tokens?_flatMap_lines (hfields : fields ≠ nil) (hfilled : fields.Filled) :
    tokens? ((fields.lines 0).flatMap Line.write) = some (Node.blockTokens fields.tokens) := by
  have hfirst : Line.firstColumn (fields.lines 0 ++ []) = 0 := Nat.le_zero.mp (fields.firstColumn_lines_append_le (Nat.le_refl 0))
  have hlines : Line.Separate (fields.lines 0 ++ []) := fields.separate_lines_append (Nat.le_refl 0) True.intro
  rw [List.append_nil] at hfirst hlines
  have hclosed : ((fields.lines 0).foldl Outline.addLine {}).close 0 = Outline.push {} (Node.blockTokens fields.tokens).reverse :=
    close_foldl_block hfields (Nat.le_refl 0) (Nat.le_refl 0) (close_foldl_lines hfilled rfl)
  rw [tokens?_flatMap_write hfirst hlines, hclosed]
  simp [Outline.push]

section Reading

theorem readsAs_items (items : List Unbroken) : Node.ReadsAs (itemTokens items) (itemsNode items) := by
  cases items with
  | nil => exact Node.readsAs_noItems
  | cons item items =>
    have hne : (item :: items).map Unbroken.scalar ≠ [] := by simp
    have hitems := Node.readsAs_items hne (by simp [Unbroken.scalar])
    rw [List.flatMap_map] at hitems
    exact hitems

theorem fieldsReadAs (fields : Fields) : Node.FieldsReadAs fields.tokens fields.nodes := by
  induction fields with
  | nil => exact .nil
  | word key value more ih => exact .cons ⟨rfl, Node.readsAs_scalar rfl⟩ ih
  | list key items more ih => exact .cons ⟨rfl, readsAs_items items⟩ ih
  | block key inner more ih_inner ih => exact .cons ⟨rfl, Node.readsAs_mapping ih_inner⟩ ih

theorem follow_of_mem_nodes {d : Document} {field : String × Node} (hfield : field ∈ fields.nodes) : d.follow field.2 = field.2 := by
  induction fields with
  | nil => cases hfield
  | word key value more ih =>
    rcases List.mem_cons.mp hfield with rfl | hfield
    · rfl
    · exact ih hfield
  | list key items more ih =>
    rcases List.mem_cons.mp hfield with rfl | hfield
    · rfl
    · exact ih hfield
  | block key inner more _ ih =>
    rcases List.mem_cons.mp hfield with rfl | hfield
    · rfl
    · exact ih hfield

/-- A document in block style is read as the node that it stands for. -/
theorem read?_flatMap_lines (hfields : fields ≠ nil) (hfilled : fields.Filled) :
    Document.read? (String.ofList ((fields.lines 0).flatMap Line.write)) = some ⟨.mapping (Node.entriesOf fields.nodes), {}⟩ := by
  rw [Document.read?, String.toList_ofList, tokens?_flatMap_lines hfields hfilled, Option.bind_some,
    Document.ofTokens?_mapping fields.fieldsReadAs]

end Reading

end Fields

end AssetGraph.Yaml
