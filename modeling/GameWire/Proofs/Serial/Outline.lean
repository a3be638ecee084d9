import GameWire.Serial

/-!
# Outlines and the values read for them

`Outline.tree` is the value that a reader finds where an outline was written, and `Outline.Within`
says that MessagePack has a header for everything in it.
-/

namespace GameWire

/-- Whether numbers may stand for names. -/
def SerialFormat.isOrdinal : SerialFormat → Bool
  | json => false
  | messagePack | messagePackNamed => true

/-- Whether the fields of records are written with their names. -/
def SerialFormat.isNamed : SerialFormat → Bool
  | messagePack => false
  | json | messagePackNamed => true

namespace Outline

/-! ## What is found -/

mutual

/-- The value that is found where an outline was written. -/
def tree (f : SerialFormat) : Outline → Tree
  | .number n => .number n f.isOrdinal
  | .text s => .text s
  | .list items => .list (treeItems f items)
  | .record fields =>
    if f.isNamed then .table (treeEntries f fields) else .list (treeValues f fields)
  | .tagged tag payload => .table [(.text tag, tree f payload)]

def treeItems (f : SerialFormat) : List Outline → List Tree
  | [] => []
  | item :: items => tree f item :: treeItems f items

def treeEntries (f : SerialFormat) : List (String × Outline) → List (Tree × Tree)
  | [] => []
  | (name, value) :: fields => (.text name, tree f value) :: treeEntries f fields

def treeValues (f : SerialFormat) : List (String × Outline) → List Tree
  | [] => []
  | (_, value) :: fields => tree f value :: treeValues f fields

end

theorem treeItems_eq_map (f : SerialFormat) (items : List Outline) :
    treeItems f items = items.map (tree f) := by
  induction items with
  | nil => rfl
  | cons item items ih => rw [treeItems, ih, List.map_cons]

theorem treeEntries_eq_map (f : SerialFormat) (fields : List (String × Outline)) :
    treeEntries f fields = fields.map fun field => (.text field.1, field.2.tree f) := by
  induction fields with
  | nil => rfl
  | cons field fields ih => rw [treeEntries, ih, List.map_cons]

theorem treeEntries_zip (f : SerialFormat) (names : List String) (values : List Outline) :
    treeEntries f (names.zip values) = (names.map .text).zip (values.map (tree f)) := by
  induction names generalizing values with
  | nil => rfl
  | cons name names ih =>
    cases values with
    | nil => rfl
    | cons value values => rw [List.zip_cons_cons, treeEntries, ih]; rfl

theorem treeValues_eq_map (f : SerialFormat) (fields : List (String × Outline)) :
    treeValues f fields = fields.map fun field => field.2.tree f := by
  induction fields with
  | nil => rfl
  | cons field fields ih => rw [treeValues, ih, List.map_cons]

theorem treeValues_zip (f : SerialFormat) {names : List String} {values : List Outline}
    (h : values.length = names.length) :
    treeValues f (names.zip values) = values.map (tree f) := by
  have hvalues : (names.zip values).map Prod.snd = values :=
    List.map_snd_zip (Nat.le_of_eq h)
  calc treeValues f (names.zip values)
      = ((names.zip values).map Prod.snd).map (tree f) := by
        rw [treeValues_eq_map, List.map_map]
        rfl
    _ = values.map (tree f) := by rw [hvalues]

/-! ## What fits -/

/-- Whether an outline is nested at most `depth` levels deep and every number, text and list in it
has a header. -/
def Within : (depth : Nat) → Outline → Prop
  | 0, _ => False
  | _ + 1, .number n => n < 2 ^ 64
  | _ + 1, .text s => (Utf8.encode s).length < 2 ^ 32
  | depth + 1, .list items => items.length < 2 ^ 32 ∧ ∀ item ∈ items, Within depth item
  | depth + 1, .record fields =>
    fields.length < 2 ^ 32 ∧
      ∀ field ∈ fields, (Utf8.encode field.1).length < 2 ^ 32 ∧ Within depth field.2
  | depth + 1, .tagged tag payload => (Utf8.encode tag).length < 2 ^ 32 ∧ Within depth payload

theorem Within.succ {depth : Nat} {o : Outline} (h : o.Within depth) : o.Within (depth + 1) := by
  induction depth generalizing o with
  | zero => exact h.elim
  | succ depth ih =>
    cases o with
    | number n => exact h
    | text s => exact h
    | list items => exact ⟨h.1, fun item hi => ih (h.2 item hi)⟩
    | record fields => exact ⟨h.1, fun field hi => ⟨(h.2 field hi).1, ih (h.2 field hi).2⟩⟩
    | tagged tag payload => exact ⟨h.1, ih h.2⟩

theorem Within.mono {depth deeper : Nat} {o : Outline} (h : o.Within depth)
    (hd : depth ≤ deeper) : o.Within deeper := by
  induction hd with
  | refl => exact h
  | step _ ih => exact ih.succ

end Outline

end GameWire
