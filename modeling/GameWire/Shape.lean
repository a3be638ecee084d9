/-!
# Shapes

A `Shape` says how a value is put into a written form and how it is recognised in one that was read.
The two forms need not be of the same type: what is read knows less than what is written. `Fields`
are the fields of a record, stated once for both directions; what a field that is left out means is
up to the field.
-/

namespace GameWire

/-- How values of type `α` are outlined as an `ω` and recognised in a `τ`. -/
structure Shape (ω τ α : Type) where
  outline : α → ω
  read? : τ → Option α

/-- The fields of a record: their names, their outlines in the same order, and how the record is
made from as many values, where `none` stands for a field left out. -/
structure Fields (ω τ α : Type) where
  names : List String
  outlines : α → List ω
  read? : List (Option τ) → Option α

namespace Fields

variable {ω τ α β : Type}

def none : Fields ω τ Unit := ⟨[], fun _ => [], fun _ => some ()⟩

def required (name : String) (shape : Shape ω τ α) : Fields ω τ α where
  names := [name]
  outlines x := [shape.outline x]
  read?
    | [some t] => shape.read? t
    | _ => .none

def optional (name : String) (shape : Shape ω τ α) (default : α) : Fields ω τ α where
  names := [name]
  outlines x := [shape.outline x]
  read?
    | [some t] => shape.read? t
    | _ => some default

/-- The fields of one record and then those of another. -/
def both (a : Fields ω τ α) (b : Fields ω τ β) : Fields ω τ (α × β) where
  names := a.names ++ b.names
  outlines := fun (x, y) => a.outlines x ++ b.outlines y
  read? ts := do
    let x ← a.read? (ts.take a.names.length)
    let y ← b.read? (ts.drop a.names.length)
    some (x, y)

/-- The same fields of another type. -/
def as (a : Fields ω τ α) (make : α → β) (split : β → α) : Fields ω τ β where
  names := a.names
  outlines y := a.outlines (split y)
  read? ts := (a.read? ts).map make

end Fields

end GameWire
