import Mathlib.Data.List.Forall2
import TransactionMonitoring.DatumStructure

/-! What a datum's display tree leaves out.

The budget's mark is set where a walk leaves a truncation node, whichever of its limits it
met.  A tree without one is the whole rendering of what the walk opens; of Plutus data that is
every node, unless a CBOR map repeats a key, which is one entry of the dictionary it is loaded
into; of other values not what the walk passes over: fields that are no list, map entries that are
no objects, members beside those it recognises.
-/
namespace TransactionMonitoring.DatumStructure

mutual

/-- Some node of the tree stands for a part that was not opened. -/
def DatumNode.cut : DatumNode → Bool
  | ⟨kind, _, _, _, children⟩ => kind = .truncated || anyCut children

def anyCut : List DatumNode → Bool
  | [] => false
  | node :: rest => node.cut || anyCut rest

end

theorem cut_eq (node : DatumNode) : node.cut = (decide (node.kind = .truncated) || anyCut node.children) := by
  cases node
  rfl

/-- The nodes of map entries over their keys and values. -/
def entryNodes (pairs : List (DatumNode × DatumNode)) : List DatumNode :=
  pairs.map fun pair => { kind := .mapEntry, children := [pair.1, pair.2] }

/-- The whole rendering of a value: every part it opens to is rendered. -/
inductive Renders {α : Type} (opened : α → Opened α) : α → DatumNode → Prop where
  | leaf {value : α} {node : DatumNode} (opens : opened value = .leaf node) : Renders opened value node
  | branch {value : α} {node : DatumNode} {parts : List α} {trees : List DatumNode}
      (opens : opened value = .branch node parts) (inside : List.Forall₂ (Renders opened) parts trees) :
      Renders opened value { node with children := trees }
  | map {value : α} {entries : List (α × α)} {pairs : List (DatumNode × DatumNode)}
      (opens : opened value = .map entries) (inside : List.Forall₂ (Entrywise (Renders opened)) entries pairs) :
      Renders opened value { kind := .map, children := entryNodes pairs }

/-- The tree shows every node of the data. -/
inductive Represents : Data → DatumNode → Prop where
  | constr {index : Nat} {fields : List Data} {trees : List DatumNode}
      (inside : List.Forall₂ Represents fields trees) :
      Represents (.constr index fields)
        { kind := .constructor, constructorIndex := some (index : Int), children := trees }
  | map {entries : List (Data × Data)} {pairs : List (DatumNode × DatumNode)}
      (inside : List.Forall₂ (Entrywise Represents) entries pairs) :
      Represents (.map entries) { kind := .map, children := entryNodes pairs }
  | list {items : List Data} {trees : List DatumNode} (inside : List.Forall₂ Represents items trees) :
      Represents (.list items) { kind := .list, children := trees }
  | int (value : Int) : Represents (.int value) { kind := .int, value := some (toString value) }
  | bytes (blob : List UInt8) (text : Option String) :
      Represents (.bytes blob) { kind := .bytes, value := some (hexOf blob), text := text }

section
variable {α : Type} {opened : α → Opened α} {walk : α → Budget → DatumNode × Budget}

/-! ## The mark and the nodes -/

/-- A walk sets the mark exactly if it leaves a truncation node. -/
def Marks (walk : α → Budget → DatumNode × Budget) (part : α) : Prop :=
  ∀ budget, (walk part budget).2.hit = (budget.hit || (walk part budget).1.cut)

theorem walkAll_marks {parts : List α} (marks : ∀ part ∈ parts, Marks walk part) (budget : Budget) :
    (walkAll walk parts budget).2.hit = (budget.hit || anyCut (walkAll walk parts budget).1) := by
  induction parts generalizing budget with
  | nil => simp [walkAll, anyCut]
  | cons part rest ih =>
    obtain ⟨here, later⟩ := List.forall_mem_cons.mp marks
    rw [walkAll, anyCut, ih later, here, Bool.or_assoc]

theorem walkEntries_marks {entries : List (α × α)}
    (marks : ∀ entry ∈ entries, Marks walk entry.1 ∧ Marks walk entry.2) (budget : Budget) :
    (walkEntries walk entries budget).2.hit = (budget.hit || anyCut (walkEntries walk entries budget).1) := by
  induction entries generalizing budget with
  | nil => simp [walkEntries, anyCut]
  | cons entry rest ih =>
    obtain ⟨⟨key, value⟩, later⟩ := List.forall_mem_cons.mp marks
    simp only [walkEntries, anyCut, cut_eq { kind := .mapEntry, children := _ }, ih later,
      value (walk entry.1 budget).2,
      key budget]
    simp [Bool.or_assoc]

/-- A node as it is opened is no truncation node. -/
def Opened.Proper : Opened α → Prop
  | .leaf node => node.cut = false
  | .branch node _ => node.kind ≠ .truncated
  | .map _ => True

theorem walkNode_marks (proper : ∀ value, (opened value).Proper) (levels : Nat) (value : α) :
    Marks (walkNode opened levels) value := by
  induction levels generalizing value with
  | zero => exact fun budget => by simp [walkNode, elided, DatumNode.cut]
  | succ levels ih =>
    intro budget
    rw [walkNode]
    unfold Budget.take
    split
    · rename_i left empty
      simp [elided, DatumNode.cut]
    · rename_i left taken
      split at taken
      · cases taken
      · obtain ⟨-, rfl⟩ := Prod.mk.injEq .. ▸ taken
        have shape := proper value
        generalize opened value = opens at shape ⊢
        cases opens with
        | leaf node => simp [walkOpened, show node.cut = false from shape]
        | branch node parts =>
          have other : node.kind ≠ .truncated := shape
          simp only [walkOpened, parent, walkAll_marks (fun part _ => ih part), cut_eq { node with children := _ },
            other, decide_false, Bool.false_or]
        | map entries =>
          simp [walkOpened, parent, walkEntries_marks (fun entry _ => ⟨ih entry.1, ih entry.2⟩),
            cut_eq { kind := .map, children := _ }]

/-! ## Trees without a truncation node -/

/-- Whatever the whole trees of parts show, the list of them shows. -/
theorem walkAll_shows {γ : Type} {source : γ → α → Prop} {shows : γ → DatumNode → Prop}
    (each : ∀ item part budget, source item part → (walk part budget).1.cut = false → shows item (walk part budget).1)
    {items : List γ} {parts : List α} (inside : List.Forall₂ source items parts) (budget : Budget)
    (whole : anyCut (walkAll walk parts budget).1 = false) :
    List.Forall₂ shows items (walkAll walk parts budget).1 := by
  induction inside generalizing budget with
  | nil => exact .nil
  | cons here _ ih =>
    rw [walkAll, anyCut, Bool.or_eq_false_iff] at whole
    exact .cons (each _ _ budget here whole.1) (ih _ whole.2)

theorem walkEntries_shows {γ : Type} {source : γ → α → Prop} {shows : γ → DatumNode → Prop}
    (each : ∀ item part budget, source item part → (walk part budget).1.cut = false → shows item (walk part budget).1)
    {items : List (γ × γ)} {entries : List (α × α)} (inside : List.Forall₂ (Entrywise source) items entries)
    (budget : Budget) (whole : anyCut (walkEntries walk entries budget).1 = false) :
    ∃ pairs, (walkEntries walk entries budget).1 = entryNodes pairs ∧
      List.Forall₂ (Entrywise shows) items pairs := by
  induction inside generalizing budget with
  | nil => exact ⟨[], rfl, .nil⟩
  | cons here _ ih =>
    obtain ⟨keys, values⟩ := here
    simp only [walkEntries, anyCut, cut_eq { kind := .mapEntry, children := _ }, Bool.or_eq_false_iff] at whole
    obtain ⟨⟨-, keyWhole, valueWhole, -⟩, others⟩ := whole
    obtain ⟨pairs, shape, rest⟩ := ih _ others
    refine ⟨_ :: pairs, ?_, .cons (.entry (each _ _ budget keys keyWhole) (each _ _ _ values valueWhole)) rest⟩
    rw [walkEntries, shape]
    rfl

/-- A tree that is whole was taken from the budget. -/
private theorem opens_of_whole {levels : Nat} {value : α} {budget : Budget}
    (whole : (walkNode opened levels value budget).1.cut = false) :
    ∃ lower left, levels = lower + 1 ∧
      walkNode opened levels value budget = walkOpened (walkNode opened lower) (opened value) left := by
  cases levels with
  | zero => cases whole
  | succ lower =>
    rw [walkNode] at whole ⊢
    generalize budget.take = taken at whole ⊢
    obtain ⟨_ | _, left⟩ := taken
    · cases whole
    · exact ⟨lower, left, rfl, rfl⟩

/-- A tree without a truncation node renders all that the walk opens. -/
theorem walkNode_renders (levels : Nat) (value : α) (budget : Budget)
    (whole : (walkNode opened levels value budget).1.cut = false) :
    Renders opened value (walkNode opened levels value budget).1 := by
  induction levels generalizing value budget with
  | zero => cases whole
  | succ levels ih =>
    obtain ⟨lower, left, same, shape⟩ := opens_of_whole whole
    obtain rfl := Nat.succ.inj same
    have each : ∀ item part budget, item = part → (walkNode opened levels part budget).1.cut = false →
        Renders opened item (walkNode opened levels part budget).1 := by
      rintro item part budget rfl
      exact ih item budget
    rw [shape] at whole ⊢
    cases opens : opened value with
    | leaf node => exact .leaf opens
    | branch node parts =>
      rw [opens, walkOpened, parent, cut_eq, Bool.or_eq_false_iff] at whole
      exact .branch opens (walkAll_shows each (List.forall₂_refl parts) left whole.2)
    | map entries =>
      rw [opens, walkOpened, parent, cut_eq, Bool.or_eq_false_iff] at whole
      have same : List.Forall₂ (Entrywise Eq) entries entries := List.forall₂_same.mpr fun _ _ => .entry rfl rfl
      obtain ⟨pairs, nodes, inside⟩ := walkEntries_shows each same left whole.2
      rw [walkOpened, parent, nodes]
      exact .map opens inside

/-- What a representation of data opens to: a leaf for an integer or a byte string, else a node
over the representations of its parts. -/
inductive OpensAs (related : Data → α → Prop) : Data → Opened α → Prop where
  | constr {index : Nat} {fields : List Data} {parts : List α} (inside : List.Forall₂ related fields parts) :
      OpensAs related (.constr index fields)
        (.branch { kind := .constructor, constructorIndex := some (index : Int) } parts)
  | map {entries : List (Data × Data)} {parts : List (α × α)}
      (inside : List.Forall₂ (Entrywise related) entries parts) : OpensAs related (.map entries) (.map parts)
  | list {items : List Data} {parts : List α} (inside : List.Forall₂ related items parts) :
      OpensAs related (.list items) (.branch { kind := .list } parts)
  | int (value : Int) : OpensAs related (.int value) (.leaf { kind := .int, value := some (toString value) })
  | bytes (blob : List UInt8) (text : Option String) :
      OpensAs related (.bytes blob) (.leaf { kind := .bytes, value := some (hexOf blob), text := text })

variable {related : Data → α → Prop}

/-- A tree without a truncation node shows every node of the data that is walked. -/
theorem walkNode_represents (opens : ∀ data value, related data value → OpensAs related data (opened value))
    (levels : Nat) (data : Data) (value : α) (budget : Budget) (is : related data value)
    (whole : (walkNode opened levels value budget).1.cut = false) :
    Represents data (walkNode opened levels value budget).1 := by
  induction levels generalizing data value budget with
  | zero => cases whole
  | succ levels ih =>
    obtain ⟨lower, left, same, shape⟩ := opens_of_whole whole
    obtain rfl := Nat.succ.inj same
    rw [shape] at whole ⊢
    have parts := opens data value is
    generalize opened value = node at parts whole ⊢
    cases parts with
    | int value => exact .int value
    | bytes blob text => exact .bytes blob text
    | constr inside =>
      rw [walkOpened, parent, cut_eq, Bool.or_eq_false_iff] at whole
      exact .constr (walkAll_shows ih inside left whole.2)
    | list inside =>
      rw [walkOpened, parent, cut_eq, Bool.or_eq_false_iff] at whole
      exact .list (walkAll_shows ih inside left whole.2)
    | map inside =>
      rw [walkOpened, parent, cut_eq, Bool.or_eq_false_iff] at whole
      obtain ⟨pairs, nodes, inside⟩ := walkEntries_shows ih inside left whole.2
      rw [walkOpened, parent, nodes]
      exact .map inside

end

/-! ## Both representations -/

section
variable (isprintable : String → Bool) (loads : List UInt8 → Option Cbor) (maxWalkDepth : Nat)

theorem openCbor_proper (value : Cbor) : (openCbor isprintable value).Proper := by
  cases value with
  | tag number value =>
    rw [openCbor]
    unfold openTag
    split
    · intro same; cases same
    · split
      · split
        · intro same; cases same
        · intro same; cases same
      · intro same; cases same
  | array items => intro same; cases same
  | mapping entries => trivial
  | bool | int | bytes | text | null | other => rfl

theorem openPlutusJson_proper (value : Json) : (openPlutusJson isprintable value).Proper := by
  cases value with
  | list items => intro same; cases same
  | dict members =>
    rw [openPlutusJson]
    split
    · intro same; cases same
    · generalize opens : openObject isprintable (.dict members) members = opened
      obtain _ | _ | whole | _ := openObject_opened isprintable opens
      · intro same; cases same
      · trivial
      · simp [Opened.Proper, DatumNode.cut, anyCut, whole]
      · intro same; cases same
  | null | bool | int | float | text => rfl

theorem openCbor_opensAs {data : Data} {value : Cbor} (decodes : DecodesTo data value) :
    OpensAs DecodesTo data (openCbor isprintable value) := by
  cases decodes with
  | compact small inside =>
    simp only [openCbor, openTag, constructorFromTag_compact small]
    exact .constr inside
  | extended large small inside =>
    simp only [openCbor, openTag, constructorFromTag_extended large small]
    exact .constr inside
  | general inside => exact .constr inside
  | map distinct inside => exact .map inside
  | list inside => exact .list inside
  | int value => exact .int value
  | bytes blob => exact .bytes blob _

theorem openPlutusJson_opensAs {data : Data} {value : Json} (detailed : DetailedAs data value) :
    OpensAs DetailedAs data (openPlutusJson isprintable value) := by
  cases detailed with
  | constr inside => exact .constr inside
  | @map _ shown inside =>
    rw [openPlutusJson_map]
    exact .map inside
  | list inside => exact .list inside
  | int value => exact .int value
  | @bytes blob rawHex hex =>
    have opened : openPlutusJson isprintable (.dict [("bytes", .text rawHex)]) = .leaf (openBytes isprintable rawHex) :=
      rfl
    rw [opened, openBytes, hex]
    exact .bytes blob _

/-- A whole tree shows the value it is made of, and the data that the value stands for. -/
theorem walkCbor_shows {levels : Nat} {budget : Budget} (value : Cbor)
    (whole : (walkCbor isprintable levels value budget).1.cut = false) :
    Renders (openCbor isprintable) value (walkCbor isprintable levels value budget).1 ∧
      ∀ data, DecodesTo data value → Represents data (walkCbor isprintable levels value budget).1 := by
  refine ⟨walkNode_renders levels value budget whole, fun data decodes => ?_⟩
  exact walkNode_represents (fun data value => openCbor_opensAs isprintable) levels data value budget decodes whole

theorem walkPlutusJson_shows {levels : Nat} {budget : Budget} (value : Json)
    (whole : (walkPlutusJson isprintable levels value budget).1.cut = false) :
    Renders (openPlutusJson isprintable) value (walkPlutusJson isprintable levels value budget).1 ∧
      ∀ data, DetailedAs data value → Represents data (walkPlutusJson isprintable levels value budget).1 := by
  refine ⟨walkNode_renders levels value budget whole, fun data detailed => ?_⟩
  exact walkNode_represents (fun data value => openPlutusJson_opensAs isprintable) levels data value budget detailed
    whole

/-- What the tree of a datum shows: all that its walk opens, and every node of the data that
the datum represents. -/
def Shows (datum : Json) (root : DatumNode) : Prop :=
  match datum with
  | .text datum => ∃ blob value, fromHex datum = some blob ∧ loads blob = some value ∧
      Renders (openCbor isprintable) value root ∧ ∀ data, DecodesTo data value → Represents data root
  | datum => Renders (openPlutusJson isprintable) datum root ∧ ∀ data, DetailedAs data datum → Represents data root

/-- The mark is set exactly if the tree has a truncation node, and a tree without the mark
shows the whole datum, as far as the walk opens it. -/
theorem truncated_iff_cut (maxNodes : Nat) (datum : Json) :
    let decoded := decodeDatumStructure isprintable loads maxWalkDepth datum maxNodes
    (decoded.truncated = true ↔ ∃ root, decoded.root = some root ∧ root.cut = true) ∧
    ∀ root, decoded.root = some root → decoded.truncated = false → Shows isprintable loads datum root := by
  have cbor : ∀ value, (walkCbor isprintable (maxWalkDepth + 1) value { remaining := maxNodes }).2.hit =
      (walkCbor isprintable (maxWalkDepth + 1) value { remaining := maxNodes }).1.cut := by
    intro value
    exact walkNode_marks (openCbor_proper isprintable) _ value _
  have json : ∀ value, (walkPlutusJson isprintable (maxWalkDepth + 1) value { remaining := maxNodes }).2.hit =
      (walkPlutusJson isprintable (maxWalkDepth + 1) value { remaining := maxNodes }).1.cut := by
    intro value
    exact walkNode_marks (openPlutusJson_proper isprintable) _ value _
  intro decoded
  cases datum with
  | text text =>
    cases hex : fromHex text with
    | none =>
      refine ⟨by simp [decoded, decodeDatumStructure, hex], fun root found => ?_⟩
      simp [decoded, decodeDatumStructure, hex] at found
    | some blob =>
      cases loaded : loads blob with
      | none =>
        refine ⟨by simp [decoded, decodeDatumStructure, hex, loaded], fun root found => ?_⟩
        simp [decoded, decodeDatumStructure, hex, loaded] at found
      | some value =>
        refine ⟨by simp [decoded, decodeDatumStructure, hex, loaded, cbor], fun root found whole => ?_⟩
        simp only [decoded, decodeDatumStructure, hex, loaded, Option.some.injEq] at found whole
        subst found
        rw [cbor] at whole
        exact ⟨blob, value, hex, loaded, walkCbor_shows isprintable value whole⟩
  | dict members =>
    refine ⟨?_, ?_⟩
    · simp [decoded, decodeDatumStructure, json]
    · rintro root ⟨⟩ whole
      exact walkPlutusJson_shows isprintable _ ((json _).symm.trans whole)
  | list items =>
    refine ⟨?_, ?_⟩
    · simp [decoded, decodeDatumStructure, json]
    · rintro root ⟨⟩ whole
      exact walkPlutusJson_shows isprintable _ ((json _).symm.trans whole)
  | null | bool | int | float =>
    refine ⟨?_, ?_⟩
    · simp [decoded, decodeDatumStructure]
    · rintro root ⟨⟩

/-- Where the fields of a constructor are no list, the tree is not marked and the integer in them is nowhere
in it; where a CBOR map repeats a key, the tree is not marked and the first value is nowhere in it. -/
theorem passed_over_unmarked :
    decodeDatumStructure (fun _ => true) (fun _ => none) 64
        (.dict [("constructor", .int 0), ("fields", .dict [("int", .int 7)])]) 5 =
      { root := some { kind := .constructor, constructorIndex := some 0 }, encoding := .plutusJson,
        truncated := false } ∧
    decodeDatumStructure (fun _ => true)
        (fun blob => if blob = [0xa2, 1, 2, 1, 3] then some (.mapping [(.int 1, .int 3)]) else none) 64
        (.text "a201020103") 5 =
      let entries := entryNodes [({ kind := .int, value := some "1" }, { kind := .int, value := some "3" })]
      { root := some { kind := .map, children := entries }, encoding := .cborHex, truncated := false } := by
  refine ⟨rfl, ?_⟩
  have hex : fromHex "a201020103" = some [0xa2, 1, 2, 1, 3] := by decide
  simp only [decodeDatumStructure, hex]
  rfl

end
end TransactionMonitoring.DatumStructure
