-- SUMMARY: A tree is read back from its JSON text, with or without the fields that may be left out (`Node.read_back`).
import Blockform.Proofs.Nesting
import Blockform.Source

/-!
# Reading trees back

The encoder writes every field but absent positions and empty file names. What
it has written may be shortened further (`Json.ShortensTo`): a field that has its
default value may be left out, on any level. A value is read back if the reader
takes every shortening of its JSON form for it (`Form.Rereads`), as long as the
brackets are not nested more deeply than it has levels. That no two trees have
one text follows, since a reader with enough levels tells them apart.
-/

namespace Blockform

/-! ## Shortened values -/

namespace Json

mutual

/-- How deeply brackets are nested. -/
def depth : Json → Nat
  | .null | .bool _ | .int _ | .str _ => 0
  | .arr items => depthItems items + 1
  | .obj fields => depthFields fields + 1

/-- The greatest depth of items. -/
def depthItems : List Json → Nat
  | [] => 0
  | v :: rest => max v.depth (depthItems rest)

/-- The greatest depth of the values of fields. -/
def depthFields : List (String × Json) → Nat
  | [] => 0
  | (_, v) :: rest => max v.depth (depthFields rest)

end

/-- The fields that may be left out, each with the value that it stands for
    then. -/
def defaults : List (String × Json) :=
  [("orelse", .arr []), ("keywords", .arr []), ("file", .str ""), ("column", .int 0),
    ("location", .null), ("span", .null)]

mutual

/-- The second value is the first without some of the fields that have their
    default value. -/
inductive ShortensTo : Json → Json → Prop
  | null : ShortensTo .null .null
  | bool {b : Bool} : ShortensTo (.bool b) (.bool b)
  | int {n : Int} : ShortensTo (.int n) (.int n)
  | str {s : String} : ShortensTo (.str s) (.str s)
  | arr {items items' : List Json} (h : ItemsShortenTo items items') :
    ShortensTo (.arr items) (.arr items')
  | obj {fields fields' : List (String × Json)} (h : FieldsShortenTo fields fields') :
    ShortensTo (.obj fields) (.obj fields')

/-- Each item is shortened. -/
inductive ItemsShortenTo : List Json → List Json → Prop
  | nil : ItemsShortenTo [] []
  | cons {v v' : Json} {rest rest' : List Json} (hv : ShortensTo v v')
    (hrest : ItemsShortenTo rest rest') : ItemsShortenTo (v :: rest) (v' :: rest')

/-- Each field is shortened, or left out. -/
inductive FieldsShortenTo : List (String × Json) → List (String × Json) → Prop
  | nil : FieldsShortenTo [] []
  | keep {k : String} {v v' : Json} {rest rest' : List (String × Json)} (hv : ShortensTo v v')
    (hrest : FieldsShortenTo rest rest') : FieldsShortenTo ((k, v) :: rest) ((k, v') :: rest')
  | drop {k : String} {v : Json} {rest rest' : List (String × Json)} (hdefault : (k, v) ∈ defaults)
    (hrest : FieldsShortenTo rest rest') : FieldsShortenTo ((k, v) :: rest) rest'

end

mutual

theorem ShortensTo.refl : (v : Json) → v.ShortensTo v
  | .null => .null
  | .bool _ => .bool
  | .int _ => .int
  | .str _ => .str
  | .arr items => .arr (ItemsShortenTo.refl items)
  | .obj fields => .obj (FieldsShortenTo.refl fields)

theorem ItemsShortenTo.refl : (items : List Json) → ItemsShortenTo items items
  | [] => .nil
  | v :: rest => .cons (ShortensTo.refl v) (ItemsShortenTo.refl rest)

theorem FieldsShortenTo.refl : (fields : List (String × Json)) → FieldsShortenTo fields fields
  | [] => .nil
  | (_, v) :: rest => .keep (ShortensTo.refl v) (FieldsShortenTo.refl rest)

end

variable {fields fields' : List (String × Json)} {k : String} {v : Json}

theorem depth_le_of_mem (h : (k, v) ∈ fields) : v.depth ≤ depthFields fields := by
  induction fields with
  | nil => cases h
  | cons field rest ih =>
    rw [depthFields]
    rcases List.mem_cons.mp h with rfl | h
    · exact Nat.le_max_left ..
    · exact Nat.le_trans (ih h) (Nat.le_max_right ..)

theorem FieldsShortenTo.keys (h : FieldsShortenTo fields fields') :
    (fields'.map Prod.fst).Sublist (fields.map Prod.fst) := by
  induction fields generalizing fields' with
  | nil =>
    cases h
    exact .slnil
  | cons field rest ih =>
    cases h with
    | keep hv hrest => exact (ih hrest).cons_cons _
    | drop hdefault hrest => exact (ih hrest).cons _

/-- A field is shortened, or it has its default value and no field of the
    shortened object has its key. -/
theorem FieldsShortenTo.of_mem (h : FieldsShortenTo fields fields')
    (hkeys : (fields.map Prod.fst).Nodup) (hmem : (k, v) ∈ fields) :
    (∃ v', (k, v') ∈ fields' ∧ v.ShortensTo v') ∨
      ((k, v) ∈ defaults ∧ k ∉ fields'.map Prod.fst) := by
  induction fields generalizing fields' with
  | nil => cases hmem
  | cons field rest ih =>
    rw [List.map_cons, List.nodup_cons] at hkeys
    have hnext {fields' : List (String × Json)} (hrest : FieldsShortenTo rest fields')
        (hmem : (k, v) ∈ rest) := ih hrest hkeys.2 hmem
    cases h with
    | @keep k' v₁ v₁' _ rest' hv hrest =>
      rcases List.mem_cons.mp hmem with heq | hmem
      · cases heq
        exact .inl ⟨v₁', List.mem_cons_self .., hv⟩
      · rcases hnext hrest hmem with ⟨v', hv', hshort⟩ | ⟨hdefault, hnot⟩
        · exact .inl ⟨v', List.mem_cons_of_mem _ hv', hshort⟩
        · refine .inr ⟨hdefault, fun hk => ?_⟩
          rcases List.mem_cons.mp hk with heq | hk
          · exact hkeys.1 (List.mem_map.mpr ⟨(k, v), hmem, heq⟩)
          · exact hnot hk
    | drop hdefault hrest =>
      rcases List.mem_cons.mp hmem with heq | hmem
      · cases heq
        exact .inr ⟨hdefault, fun hk => hkeys.1 (hrest.keys.subset hk)⟩
      · exact hnext hrest hmem

end Json

namespace Reader

open Json

/-! ## Values that are read back -/

/-- Every shortening of the JSON value that has no more levels is read as the
    value. -/
def Form.Rereads (form : Form) (n : Nat) (j : Json) (v : form.Val) : Prop :=
  ∀ j', j.ShortensTo j' → j'.depth ≤ n → Reads (Form.readAt (Form.readers n) form) j'.chars v

/-- The same of the value of a field. -/
def Field.Rereads (f : Field) (n : Nat) (j : Json) (v : f.Val) : Prop :=
  ∀ j', j.ShortensTo j' → j'.depth ≤ n →
    Reads (readField (Form.readAt (Form.readers n)) f) j'.chars v

/-- An object gives a field its value: it has a field of the name that is read
    back, or none, and the field stands for the value if it is left out. -/
def Field.Written (n : Nat) (fields : List (String × Json)) (f : Field) (v : f.Val) : Prop :=
  (∃ j, (f.name, j) ∈ fields ∧ f.Rereads n j v ∧
    ((f.name, j) ∈ defaults → f.inObject = some v)) ∨
  (f.name ∉ fields.map Prod.fst ∧ f.inObject = some v)

/-- An object gives the fields of a record their values. -/
def Written (n : Nat) (fields : List (String × Json)) : (fs : List Field) → Fields fs → Prop
  | [], _ => True
  | f :: fs, (v, vs) => f.Written n fields v ∧ Written n fields fs vs

variable {α : Type} {n : Nat} {fields fields' : List (String × Json)} {form : Form} {name : String}
  {j : Json}

theorem Written.holds {fs : List Field} {vs : Fields fs} (h : Written n fields fs vs)
    (hkeys : (fields.map Prod.fst).Nodup) (hshort : FieldsShortenTo fields fields')
    (hdepth : depthFields fields' ≤ n) :
    Holds (Form.readAt (Form.readers n)) fields' fs (.empty _) vs := by
  induction fs with
  | nil => trivial
  | cons f fs ih =>
    obtain ⟨v, vs⟩ := vs
    refine ⟨.inr ⟨rfl, ?_⟩, ih h.2⟩
    rcases h.1 with ⟨j, hmem, hread, hdefault⟩ | ⟨hnot, hv⟩
    · rcases hshort.of_mem hkeys hmem with ⟨j', hmem', hj'⟩ | ⟨hj, hnot⟩
      · exact .inl ⟨j', hmem', hread j' hj' (Nat.le_trans (depth_le_of_mem hmem') hdepth)⟩
      · exact .inr ⟨hnot, hdefault hj⟩
    · exact .inr ⟨fun hk => hnot (hshort.keys.subset hk), hv⟩

theorem record_rereads {r : Record α} {vs : Fields r.fields}
    (hnames : (r.fields.map Field.name).Nodup)
    (hkeys : (fields.map Prod.fst).Sublist (r.fields.map Field.name))
    (h : Written n fields r.fields vs) (hshort : FieldsShortenTo fields fields')
    (hdepth : depthFields fields' ≤ n) :
    Reads (readRecord (some (Form.readAt (Form.readers n))) r) (Json.obj fields').chars
      (r.build vs) :=
  have hnodup := hnames.sublist hkeys
  record_reads hnames (hnodup.sublist hshort.keys) (hshort.keys.trans hkeys).subset
    (h.holds hnodup hshort hdepth)

/-! ## Forms -/

/-- A record that is the whole of a form. -/
theorem Form.rereads_record (form : Form) (r : Record form.Val) (vs : Fields r.fields)
    (hform : ∀ below, Form.readAt below form = readRecord below.head? r)
    (hnames : (r.fields.map Field.name).Nodup)
    (hkeys : (fields.map Prod.fst).Sublist (r.fields.map Field.name))
    (h : ∀ n, Written n fields r.fields vs) (n : Nat) :
    form.Rereads n (.obj fields) (r.build vs) := by
  intro j' hshort hdepth
  cases hshort with
  | obj hshort =>
    obtain ⟨n, rfl⟩ : ∃ m, n = m + 1 := Nat.exists_eq_add_one_of_ne_zero (Nat.ne_zero_of_lt hdepth)
    rw [hform]
    exact record_rereads hnames hkeys (h n) hshort (Nat.le_of_succ_le_succ hdepth)

/-- A kind of node with fields. -/
theorem Form.rereads_kind (name : String) {r : Record Kind} {k : Kind}
    (hfind : kindVariants.find? (·.name = name) = some (.record name r)) (vs : Fields r.fields)
    (hk : r.build vs = k) (hname : name ∉ defaults.map Prod.fst)
    (hnames : (r.fields.map Field.name).Nodup)
    (hkeys : (fields.map Prod.fst).Sublist (r.fields.map Field.name))
    (h : ∀ n, Written n fields r.fields vs) (n : Nat) :
    Form.kind.Rereads n (.tagged name fields) k := by
  subst hk
  intro j' hshort hdepth
  cases hshort with
  | obj hshort =>
    cases hshort with
    | drop hdefault => exact absurd (List.mem_map.mpr ⟨_, hdefault, rfl⟩) hname
    | keep hshort hrest =>
      cases hrest
      cases hshort with
      | obj hshort =>
        simp only [depth, depthFields, Nat.max_zero] at hdepth
        obtain ⟨n, rfl⟩ : ∃ m, n = m + 2 := ⟨n - 2, by omega⟩
        exact variant_reads hfind (record_rereads hnames hkeys (h n) hshort (by omega))

theorem Form.rereads_bare {v : Kind}
    (hfind : kindVariants.find? (·.name = name) = some (.bare name v)) (n : Nat) :
    Form.kind.Rereads n (.str name) v := by
  intro j' hshort _
  cases hshort
  exact bare_reads hfind

theorem Form.rereads_text (s : String) (n : Nat) : Form.text.Rereads n (.str s) s := by
  intro j' hshort _
  cases hshort
  exact text_reads s

theorem Form.rereads_int64 (v : Int64) (n : Nat) : Form.int64.Rereads n (.int v.toInt) v := by
  intro j' hshort _
  cases hshort
  exact int64_reads v

theorem Form.rereads_size (v : UInt64) (n : Nat) : Form.size.Rereads n (.int v.toNat) v := by
  intro j' hshort _
  cases hshort
  exact size_reads v

theorem Form.rereads_operator {name : form.Val → String} {all : List form.Val} {op : form.Val}
    (hform : ∀ below, Form.readAt below form = readVariant below (operatorVariants name all))
    (hnames : (all.map name).Nodup) (hop : op ∈ all) (n : Nat) :
    form.Rereads n (.str (name op)) op := by
  intro j' hshort _
  cases hshort
  rw [hform]
  exact operator_reads hnames hop

theorem Form.rereads_list {item : Form} {js : List Json} {vs : List item.Val}
    (h : List.Forall₂ (fun j v => ∀ n, item.Rereads n j v) js vs) (n : Nat) :
    (Form.list item).Rereads n (.arr js) vs := by
  intro j' hshort hdepth
  cases hshort with
  | @arr _ items' hshort =>
    obtain ⟨n, rfl⟩ : ∃ m, n = m + 1 := Nat.exists_eq_add_one_of_ne_zero (Nat.ne_zero_of_lt hdepth)
    have hitems : depthItems items' ≤ n := Nat.le_of_succ_le_succ hdepth
    clear hdepth
    refine list_reads ?_
    induction h generalizing items' with
    | nil =>
      cases hshort
      exact .nil
    | cons hj _ ih =>
      cases hshort with
      | cons hv hrest =>
        rw [depthItems, Nat.max_le] at hitems
        exact .cons (hj n _ hv hitems.1) (ih hrest hitems.2)

/-! ## Fields -/

namespace Field.Written

theorem required {v : form.Val} (hj : form.Rereads n j v) (hmem : (name, j) ∈ fields)
    (hname : name ∉ defaults.map Prod.fst) :
    (Field.required name form).Written n fields v :=
  .inl ⟨j, hmem, hj, fun hdefault => absurd (List.mem_map.mpr ⟨_, hdefault, rfl⟩) hname⟩

theorem defaulted {v value : form.Val} (hj : form.Rereads n j v) (hmem : (name, j) ∈ fields)
    (hdefault : (name, j) ∈ defaults → v = value) :
    (Field.defaulted name form value).Written n fields v :=
  .inl ⟨j, hmem, hj, fun h => congrArg some (hdefault h).symm⟩

theorem absent {f : Field} {v : f.Val} (hnot : f.name ∉ fields.map Prod.fst)
    (hv : f.inObject = some v) : f.Written n fields v :=
  .inr ⟨hnot, hv⟩

variable {inLists : Bool}

theorem present {v : form.Val} (hj : form.Rereads n j v) (hmem : (name, j) ∈ fields)
    (hnull : j ≠ .null) (hdefault : (name, j) ∉ defaults) :
    (Field.optional name form inLists).Written n fields (some v) := by
  refine .inl ⟨j, hmem, fun j' hshort hdepth => ?_, fun h => absurd h hdefault⟩
  refine orNull_reads_some ?_ (hj j' hshort hdepth)
  rintro rfl
  cases hshort
  exact hnull rfl

theorem null (hmem : (name, .null) ∈ fields) :
    (Field.optional name form inLists).Written n fields none := by
  refine .inl ⟨.null, hmem, fun j' hshort _ => ?_, fun _ => rfl⟩
  cases hshort
  exact orNull_reads_none

end Field.Written

end Reader

/-! ## Trees -/

open Reader Json

theorem Location.rereads (l : Location) (n : Nat) : Form.location.Rereads n l.toJson l := by
  obtain ⟨file, line, column⟩ := l
  have hline {fields : List (String × Json)} (h : ("line", .int line.toNat) ∈ fields) (n : Nat) :
      (Field.required "line" .size).Written n fields line :=
    .required (Form.rereads_size line n) h (by decide)
  have hcolumn {fields : List (String × Json)} (h : ("column", .int column.toNat) ∈ fields)
      (n : Nat) : (Field.defaulted "column" .size (0 : UInt64)).Written n fields column := by
    refine .defaulted (Form.rereads_size column n) h fun hdefault => ?_
    have hzero : column.toNat = 0 := by simpa [defaults] using hdefault
    exact UInt64.toNat_inj.mp hzero
  cases hfile : file.isEmpty with
  | true =>
    have hempty : file = "" := String.isEmpty_iff.mp hfile
    have hjson : Location.toJson ⟨file, line, column⟩ =
        .obj [("line", .int line.toNat), ("column", .int column.toNat)] := by
      simp [Location.toJson, hfile]
    rw [hjson]
    refine Form.rereads_record .location locationRecord (file, line, column, ()) (fun _ => rfl)
      (by decide) (.cons _ (.refl _)) (fun n => ⟨.absent ?_ (congrArg some hempty.symm),
        hline (by simp) n, hcolumn (by simp) n, trivial⟩) n
    simp [Field.name]
  | false =>
    have hjson : Location.toJson ⟨file, line, column⟩ = .obj [("file", .str file),
        ("line", .int line.toNat), ("column", .int column.toNat)] := by
      simp [Location.toJson, hfile]
    rw [hjson]
    refine Form.rereads_record .location locationRecord (file, line, column, ()) (fun _ => rfl)
      (by decide) (.refl _) (fun n => ⟨.defaulted (Form.rereads_text file n) (List.mem_cons_self ..)
        (fun hdefault => ?_), hline (by simp) n, hcolumn (by simp) n, trivial⟩) n
    have hempty : file = "" := by simpa [defaults] using hdefault
    exact hempty

theorem Span.rereads (s : Span) (n : Nat) : Form.span.Rereads n s.toJson s := by
  obtain ⟨start, finish⟩ := s
  exact Form.rereads_record .span spanRecord (start, finish, ()) (fun _ => rfl) (by decide)
    (.refl _) (fun n => ⟨.required (start.rereads n) (by simp) (by decide),
      .required (finish.rereads n) (by simp) (by decide), trivial⟩) n

/-- A node is read back on any number of levels that it fits. -/
def Node.ReadBack (node : Node) : Prop := ∀ n, Form.node.Rereads n node.toJson node

theorem Node.readBack_of_kind {kind : Kind} (location : Option Location) (span : Option Span)
    (hkind : ∀ n, Form.kind.Rereads n kind.toJson kind) :
    (Node.mk kind location span).ReadBack := by
  refine Form.rereads_record .node nodeRecord (kind, location, span, ()) (fun _ => rfl) (by decide)
    ?_ fun n => ⟨.required (hkind n) (List.mem_cons_self ..) (by decide), ?_, ?_, trivial⟩
  · cases location with
    | none => cases span with
      | none => exact .cons_cons _ (.cons _ (.cons _ .slnil))
      | some s => exact .cons_cons _ (.cons _ (.refl _))
    | some l => cases span with
      | none => exact .cons_cons _ (.cons_cons _ (.cons _ .slnil))
      | some s => exact .refl _
  · cases location with
    | none => exact .absent (by cases span <;> simp [Field.name]) rfl
    | some l =>
      exact .present (l.rereads n) (by simp) (by nofun) (by simp [defaults, Location.toJson])
  · cases span with
    | none => exact .absent (by cases location <;> simp [Field.name]) rfl
    | some s =>
      exact .present (s.rereads n) (by simp) (by nofun) (by simp [defaults, Span.toJson])

theorem nodes_rereads {ns : List Node} (hns : ∀ node ∈ ns, node.ReadBack) (n : Nat) :
    (Form.list .node).Rereads n (.arr (nodesToJson ns)) ns := by
  refine Form.rereads_list ?_ n
  induction ns with
  | nil => exact .nil
  | cons node rest ih =>
    rw [List.forall_mem_cons] at hns
    exact .cons hns.1 (ih hns.2)

theorem keywords_rereads {ks : List Keyword} (hks : ∀ k ∈ ks, k.value.ReadBack) (n : Nat) :
    (Form.list .keyword).Rereads n (.arr (keywordsToJson ks)) ks := by
  refine Form.rereads_list ?_ n
  induction ks with
  | nil => exact .nil
  | cons k rest ih =>
    obtain ⟨arg, value⟩ := k
    rw [List.forall_mem_cons] at hks
    refine .cons (Form.rereads_record .keyword keywordRecord (arg, value, ()) (fun _ => rfl)
      (by decide) (.refl _) fun n => ⟨?_, .required (hks.1 n) (by simp) (by decide), trivial⟩)
      (ih hks.2)
    cases arg with
    | none => exact .null (List.mem_cons_self ..)
    | some s =>
      exact .present (Form.rereads_text s n) (List.mem_cons_self ..) (by nofun) (by simp [defaults])

theorem texts_rereads (texts : List String) (n : Nat) :
    (Form.list .text).Rereads n (.arr (texts.map .str)) texts := by
  refine Form.rereads_list ?_ n
  induction texts with
  | nil => exact .nil
  | cons s rest ih => exact .cons (Form.rereads_text s) ih

theorem compareOperators_rereads (ops : List CompareOperator) (n : Nat) :
    (Form.list .compareOperator).Rereads n (.arr (ops.map fun op => .str op.name)) ops := by
  refine Form.rereads_list ?_ n
  induction ops with
  | nil => exact .nil
  | cons op rest ih =>
    exact .cons (Form.rereads_operator (fun _ => rfl) (by decide) op.mem_all) ih

/-- A list that may be left out is empty. -/
theorem nodes_eq_nil {key : String} {ns : List Node}
    (h : (key, .arr (nodesToJson ns)) ∈ defaults) : ns = [] := by
  cases ns with
  | nil => rfl
  | cons node rest => simp [defaults, nodesToJson] at h

theorem keywords_eq_nil {key : String} {ks : List Keyword}
    (h : (key, .arr (keywordsToJson ks)) ∈ defaults) : ks = [] := by
  cases ks with
  | nil => rfl
  | cons k rest =>
    obtain ⟨arg, value⟩ := k
    simp [defaults, keywordsToJson] at h

theorem Kind.rereads {k : Kind} (hparts : ∀ node ∈ k.parts, node.ReadBack) (n : Nat) :
    Form.kind.Rereads n k.toJson k := by
  have hnodes (ns : List Node) (hns : ∀ node ∈ ns, node ∈ k.parts) :=
    nodes_rereads fun node h => hparts node (hns node h)
  cases k with
  | module body =>
    exact Form.rereads_kind "Module" rfl (body, ()) rfl (by decide) (by decide) (.refl _)
      (fun n => ⟨.required (hnodes body (by simp [parts]) n) (by simp) (by decide), trivial⟩) n
  | functionDef name params body =>
    exact Form.rereads_kind "FunctionDef" rfl (name, params, body, ()) rfl (by decide) (by decide)
      (.refl _) (fun n => ⟨.required (Form.rereads_text name n) (by simp) (by decide),
        .required (texts_rereads params n) (by simp) (by decide),
        .required (hnodes body (by simp [parts]) n) (by simp) (by decide), trivial⟩) n
  | assign targets value =>
    exact Form.rereads_kind "Assign" rfl (targets, value, ()) rfl (by decide) (by decide) (.refl _)
      (fun n => ⟨.required (hnodes targets (by simp +contextual [parts]) n) (by simp) (by decide),
        .required (hparts value (by simp [parts]) n) (by simp) (by decide), trivial⟩) n
  | augAssign target op value =>
    exact Form.rereads_kind "AugAssign" rfl (target, op, value, ()) rfl (by decide) (by decide)
      (.refl _) (fun n => ⟨.required (hparts target (by simp [parts]) n) (by simp) (by decide),
        .required (Form.rereads_operator (fun _ => rfl) (by decide) op.mem_all n) (by simp)
          (by decide),
        .required (hparts value (by simp [parts]) n) (by simp) (by decide), trivial⟩) n
  | expr value =>
    exact Form.rereads_kind "Expr" rfl (value, ()) rfl (by decide) (by decide) (.refl _)
      (fun n => ⟨.required (hparts value (by simp [parts]) n) (by simp) (by decide), trivial⟩) n
  | ret value =>
    cases value with
    | none =>
      exact Form.rereads_kind "Return" rfl (none, ()) rfl (by decide) (by decide) (.refl _)
        (fun n => ⟨.null (by simp), trivial⟩) n
    | some value =>
      exact Form.rereads_kind "Return" rfl (some value, ()) rfl (by decide) (by decide) (.refl _)
        (fun n => ⟨.present (hparts value (by simp [parts]) n) (by simp)
          (by cases value; intro h; cases h) (by simp [defaults]), trivial⟩) n
  | ifElse test body orelse =>
    exact Form.rereads_kind "If" rfl (test, body, orelse, ()) rfl (by decide) (by decide) (.refl _)
      (fun n => ⟨.required (hparts test (by simp [parts]) n) (by simp) (by decide),
        .required (hnodes body (by simp +contextual [parts]) n) (by simp) (by decide),
        .defaulted (hnodes orelse (by simp +contextual [parts]) n) (by simp) nodes_eq_nil,
        trivial⟩) n
  | whileLoop test body orelse =>
    exact Form.rereads_kind "While" rfl (test, body, orelse, ()) rfl (by decide) (by decide)
      (.refl _) (fun n => ⟨.required (hparts test (by simp [parts]) n) (by simp) (by decide),
        .required (hnodes body (by simp +contextual [parts]) n) (by simp) (by decide),
        .defaulted (hnodes orelse (by simp +contextual [parts]) n) (by simp) nodes_eq_nil,
        trivial⟩) n
  | forLoop target iter body orelse =>
    exact Form.rereads_kind "For" rfl (target, iter, body, orelse, ()) rfl (by decide) (by decide)
      (.refl _) (fun n => ⟨.required (hparts target (by simp [parts]) n) (by simp) (by decide),
        .required (hparts iter (by simp [parts]) n) (by simp) (by decide),
        .required (hnodes body (by simp +contextual [parts]) n) (by simp) (by decide),
        .defaulted (hnodes orelse (by simp +contextual [parts]) n) (by simp) nodes_eq_nil,
        trivial⟩) n
  | pass => exact Form.rereads_bare rfl n
  | breakLoop => exact Form.rereads_bare rfl n
  | continueLoop => exact Form.rereads_bare rfl n
  | constant value =>
    exact Form.rereads_kind "Constant" rfl (value, ()) rfl (by decide) (by decide) (.refl _)
      (fun n => ⟨.required (Form.rereads_int64 value n) (by simp) (by decide), trivial⟩) n
  | str value =>
    exact Form.rereads_kind "Str" rfl (value, ()) rfl (by decide) (by decide) (.refl _)
      (fun n => ⟨.required (Form.rereads_text value n) (by simp) (by decide), trivial⟩) n
  | name id =>
    exact Form.rereads_kind "Name" rfl (id, ()) rfl (by decide) (by decide) (.refl _)
      (fun n => ⟨.required (Form.rereads_text id n) (by simp) (by decide), trivial⟩) n
  | unaryOp op operand =>
    exact Form.rereads_kind "UnaryOp" rfl (op, operand, ()) rfl (by decide) (by decide) (.refl _)
      (fun n => ⟨.required (Form.rereads_operator (fun _ => rfl) (by decide) op.mem_all n) (by simp)
          (by decide),
        .required (hparts operand (by simp [parts]) n) (by simp) (by decide), trivial⟩) n
  | binOp left op right =>
    exact Form.rereads_kind "BinOp" rfl (left, op, right, ()) rfl (by decide) (by decide) (.refl _)
      (fun n => ⟨.required (hparts left (by simp [parts]) n) (by simp) (by decide),
        .required (Form.rereads_operator (fun _ => rfl) (by decide) op.mem_all n) (by simp)
          (by decide),
        .required (hparts right (by simp [parts]) n) (by simp) (by decide), trivial⟩) n
  | boolOp op values =>
    exact Form.rereads_kind "BoolOp" rfl (op, values, ()) rfl (by decide) (by decide) (.refl _)
      (fun n => ⟨.required (Form.rereads_operator (fun _ => rfl) (by decide) op.mem_all n) (by simp)
          (by decide),
        .required (hnodes values (by simp [parts]) n) (by simp) (by decide), trivial⟩) n
  | compare left ops comparators =>
    exact Form.rereads_kind "Compare" rfl (left, ops, comparators, ()) rfl (by decide) (by decide)
      (.refl _) (fun n => ⟨.required (hparts left (by simp [parts]) n) (by simp) (by decide),
        .required (compareOperators_rereads ops n) (by simp) (by decide),
        .required (hnodes comparators (by simp +contextual [parts]) n) (by simp) (by decide),
        trivial⟩) n
  | call func args keywords =>
    have hkeywords := keywords_rereads fun (k : Keyword) (h : k ∈ keywords) =>
      hparts k.value (by simp only [parts, List.mem_cons, List.mem_append, List.mem_map]
                         exact .inr (.inr ⟨k, h, rfl⟩))
    exact Form.rereads_kind "Call" rfl (func, args, keywords, ()) rfl (by decide) (by decide)
      (.refl _) (fun n => ⟨.required (hparts func (by simp [parts]) n) (by simp) (by decide),
        .required (hnodes args (by simp +contextual [parts]) n) (by simp) (by decide),
        .defaulted (hkeywords n) (by simp) keywords_eq_nil, trivial⟩) n
  | «attribute» value attr =>
    exact Form.rereads_kind "Attribute" rfl (value, attr, ()) rfl (by decide) (by decide) (.refl _)
      (fun n => ⟨.required (hparts value (by simp [parts]) n) (by simp) (by decide),
        .required (Form.rereads_text attr n) (by simp) (by decide), trivial⟩) n

theorem Node.readBack (node : Node) : node.ReadBack := by
  induction node using Node.parts_induction with
  | step node ih =>
    obtain ⟨kind, location, span⟩ := node
    exact Node.readBack_of_kind location span (Kind.rereads ih)

/-- A text that is read to its end on the levels that there are. -/
theorem Reader.decode_of_reads {form : Form} {j : Json} {v : form.Val}
    (h : Reads (Form.readAt (Form.readers maxLevels) form) j.chars v) :
    decode form j.compact = .ok v := by
  obtain ⟨p', hread⟩ := h [] ⟨1, 0⟩ (fun c hc => nomatch hc)
  rw [List.append_nil] at hread
  have hstart : Cursor.start j.compact = ⟨j.chars, ⟨1, 0⟩⟩ := rfl
  unfold decode
  rw [hstart, hread]
  rfl

/-- A source that holds the text of a tree, whole or shortened, gives that tree if
    its brackets are not nested too deeply, and no two trees have one text. -/
theorem Node.read_back (tree : Node) :
    (∀ j, tree.toJson.ShortensTo j → j.depth ≤ maxLevels →
      ∀ name path, Source.tree ⟨name, path, j.compact⟩ = .ok tree) ∧
    ∀ tree', tree'.toJson.compact = tree.toJson.compact → tree' = tree := by
  constructor
  · intro j hshort hdepth name path
    have hdecode := Reader.decode_of_reads (tree.readBack maxLevels j hshort hdepth)
    have hfilled : Source.isEmpty ⟨name, path, j.compact⟩ = false := by
      obtain ⟨kind, location, span⟩ := tree
      cases hshort with
      | @obj _ fields' hshort =>
        have hchars : (Json.obj fields').compact.toList = _ := chars_obj fields'
        simp only [Source.isEmpty, hchars, List.all_cons]
        rfl
    simp only [Source.tree, hfilled, Bool.false_eq_true, if_false, hdecode]
    rfl
  · intro tree' htext
    let n := max tree.toJson.depth tree'.toJson.depth
    have hread (t : Node) (ht : t.toJson.depth ≤ n) := t.readBack n t.toJson (.refl _) ht []
      ⟨1, 0⟩ (fun c hc => nomatch hc)
    obtain ⟨p, htree⟩ := hread tree (Nat.le_max_left ..)
    obtain ⟨p', htree'⟩ := hread tree' (Nat.le_max_right ..)
    have hchars : tree'.toJson.chars = tree.toJson.chars := congrArg String.toList htext
    rw [hchars, htree] at htree'
    cases htree'
    rfl

/-- A conditional is read back without its empty `orelse` and with a location that
    has neither a file nor a column. -/
theorem Node.read_back_shortened :
    let test := (Node.int 1).toJson
    let shortened := Json.obj
      [("kind", .tagged "If" [("test", test), ("body", .arr [])]),
        ("location", .obj [("line", .int 3)])]
    Source.tree ⟨"tree.json", "tree.json", shortened.compact⟩ =
      .ok ((Node.ifElse (.int 1) [] []).withLocation ⟨"", 3, 0⟩) := by
  intro test shortened
  refine (Node.read_back _).1 shortened ?_ (by decide) _ _
  have hkind : FieldsShortenTo [("test", test), ("body", .arr []), ("orelse", .arr [])]
      [("test", test), ("body", .arr [])] :=
    .keep (.refl test) (.keep (.arr .nil) (.drop (by simp [defaults]) .nil))
  have hlocation : FieldsShortenTo [("line", .int 3), ("column", .int 0)] [("line", .int 3)] :=
    .keep .int (.drop (by simp [defaults]) .nil)
  exact .obj (.keep (.obj (.keep (.obj hkind) .nil)) (.keep (.obj hlocation) .nil))

end Blockform
