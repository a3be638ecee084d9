import GameWire.Proofs.Serial.Outline
import GameWire.Serial.Shape

/-!
# Shapes and what is found of them

A lawful shape recognises its values in what is found where it outlined them, in every format, and
MessagePack has headers for the values that fit.  Putting lawful fields together into records keeps
both.
-/

namespace GameWire

/-- Whether a shape recognises its values where it outlined them, and outlines the values that fit
within `depth` levels. -/
structure SerialShape.Lawful {α : Type} (s : SerialShape α) (fits : α → Prop) (depth : Nat) :
    Prop where
  read?_tree (f : SerialFormat) (x : α) : s.read? ((s.outline x).tree f) = some x
  within (x : α) : fits x → (s.outline x).Within depth

/-- The same of the fields of a record. -/
structure Fields.Lawful {α : Type} (fields : Fields Outline Tree α) (fits : α → Prop)
    (depth : Nat) : Prop where
  length_outlines (x : α) : (fields.outlines x).length = fields.names.length
  read?_trees (f : SerialFormat) (x : α) :
    fields.read? ((fields.outlines x).map fun o => some (o.tree f)) = some x
  within (x : α) : fits x → ∀ o ∈ fields.outlines x, o.Within depth

namespace SerialShape

theorem Lawful.imp {α : Type} {s : SerialShape α} {fits fits' : α → Prop} {depth : Nat}
    (h : s.Lawful fits depth) (hf : ∀ x, fits' x → fits x) : s.Lawful fits' depth :=
  ⟨h.read?_tree, fun x hx => h.within x (hf x hx)⟩

theorem Lawful.map_read?_tree {α β : Type} {s : SerialShape α} {fits : α → Prop} {depth : Nat}
    (h : s.Lawful fits depth) (make : α → β) (f : SerialFormat) (x : α) :
    make <$> s.read? ((s.outline x).tree f) = some (make x) := by
  rw [h.read?_tree]
  rfl

/-! ## Single values -/

section Values

variable {depth : Nat}

-- Numbers below a bound, whatever their type.
theorem lawful_number {α : Type} {bound : Nat} {toNat : α → Nat} {ofNat : Nat → α}
    (hlt : ∀ n, toNat n < bound) (hof : ∀ n, ofNat (toNat n) = n) (hbound : bound ≤ 2 ^ 64) :
    Lawful ⟨fun n => .number (toNat n), fun t => ofNat <$> t.number? bound⟩ (fun _ => True)
      (depth + 1) := by
  constructor
  · intro f n
    show ofNat <$> (if toNat n < bound then some (toNat n) else none) = some n
    rw [if_pos (hlt n)]
    exact congrArg some (hof n)
  · intro n _
    exact Nat.lt_of_lt_of_le (hlt n) hbound

theorem lawful_u8 : u8.Lawful (fun _ => True) (depth + 1) :=
  lawful_number UInt8.toNat_lt (fun _ => UInt8.ofNat_toNat) (by decide)

theorem lawful_u16 : u16.Lawful (fun _ => True) (depth + 1) :=
  lawful_number UInt16.toNat_lt (fun _ => UInt16.ofNat_toNat) (by decide)

theorem lawful_u32 : u32.Lawful (fun _ => True) (depth + 1) :=
  lawful_number UInt32.toNat_lt (fun _ => UInt32.ofNat_toNat) (by decide)

theorem lawful_u64 : u64.Lawful (fun _ => True) (depth + 1) :=
  lawful_number UInt64.toNat_lt (fun _ => UInt64.ofNat_toNat) (by decide)

theorem lawful_text : text.Lawful (fun s => (Utf8.encode s).length < 2 ^ 32) (depth + 1) :=
  ⟨fun _ _ => rfl, fun _ h => h⟩

/-- The bytes of a list are recognised one by one. -/
theorem mapM_read?_tree (f : SerialFormat) (bs : Bytes) :
    (Outline.treeItems f (bs.map u8.outline)).mapM u8.read? = some bs := by
  induction bs with
  | nil => rfl
  | cons b bs ih =>
    rw [List.map_cons, Outline.treeItems, List.mapM_cons, ih,
      (lawful_u8 : u8.Lawful _ 1).read?_tree]
    rfl

theorem within_outlineBytes {bs : Bytes} (h : bs.length < 2 ^ 32) :
    (outlineBytes bs).Within (depth + 2) := by
  refine ⟨?_, ?_⟩
  · rw [List.length_map]
    exact h
  · intro o ho
    obtain ⟨b, -, rfl⟩ := List.mem_map.1 ho
    exact lawful_u8.within b trivial

theorem lawful_bytes : bytes.Lawful (fun bs => bs.length < 2 ^ 32) (depth + 2) :=
  ⟨fun f bs => mapM_read?_tree f bs, fun _ h => within_outlineBytes h⟩

theorem lawful_fixed {n : Nat} (hn : n < 2 ^ 32) :
    (fixed n).Lawful (fun _ => True) (depth + 2) := by
  constructor
  · intro f bs
    show ((Outline.treeItems f (bs.bytes.map u8.outline)).mapM u8.read? >>= _) = _
    rw [mapM_read?_tree]
    exact FixedBytes.ofBytes?_bytes bs
  · intro bs _
    apply within_outlineBytes
    rw [bs.length_eq]
    exact hn

/-- A name is recognised if it is found at the place of its value. -/
theorem lawful_choice {α : Type} {all : List α} {name : α → String}
    (hplace : ∀ x, ((all.map name).findIdx? (· == name x)).bind (all[·]?) = some x)
    (hname : ∀ x, (Utf8.encode (name x)).length < 2 ^ 32) :
    (choice all name).Lawful (fun _ => True) (depth + 1) :=
  ⟨fun _ x => hplace x, fun x _ => hname x⟩

end Values

end SerialShape

/-! ## Fields -/

namespace Fields

section

variable {α β : Type} {depth : Nat}

theorem Lawful.none : (Fields.none : Fields Outline Tree Unit).Lawful (fun _ => True) depth :=
  ⟨fun _ => rfl, fun _ _ => rfl, fun _ _ _ ho => absurd ho List.not_mem_nil⟩

theorem Lawful.required {name : String} {shape : SerialShape α} {fits : α → Prop}
    (h : shape.Lawful fits depth) : (Fields.required name shape).Lawful fits depth := by
  refine ⟨fun _ => rfl, h.read?_tree, ?_⟩
  intro x hx o ho
  rw [List.mem_singleton.1 ho]
  exact h.within x hx

theorem Lawful.optional {name : String} {shape : SerialShape α} {default : α} {fits : α → Prop}
    (h : shape.Lawful fits depth) : (Fields.optional name shape default).Lawful fits depth := by
  refine ⟨fun _ => rfl, h.read?_tree, ?_⟩
  intro x hx o ho
  rw [List.mem_singleton.1 ho]
  exact h.within x hx

theorem Lawful.both {a : Fields Outline Tree α} {b : Fields Outline Tree β} {fa : α → Prop}
    {fb : β → Prop} (ha : a.Lawful fa depth) (hb : b.Lawful fb depth) :
    (a.both b).Lawful (fun x => fa x.1 ∧ fb x.2) depth := by
  constructor
  · intro x
    show (a.outlines x.1 ++ b.outlines x.2).length = (a.names ++ b.names).length
    rw [List.length_append, List.length_append, ha.length_outlines, hb.length_outlines]
  · intro f x
    have hlength : a.names.length = ((a.outlines x.1).map fun o => some (o.tree f)).length := by
      rw [List.length_map, ha.length_outlines]
    show (a.read? (((a.outlines x.1 ++ b.outlines x.2).map _).take a.names.length) >>= fun _ =>
      b.read? (((a.outlines x.1 ++ b.outlines x.2).map _).drop a.names.length) >>= _) = _
    rw [List.map_append, hlength, List.take_left, List.drop_left, ha.read?_trees]
    show (b.read? _ >>= _) = _
    rw [hb.read?_trees]
    rfl
  · intro x hx o ho
    cases List.mem_append.1 ho with
    | inl ho => exact ha.within x.1 hx.1 o ho
    | inr ho => exact hb.within x.2 hx.2 o ho

theorem Lawful.as {a : Fields Outline Tree α} {fits : α → Prop} {make : α → β} {split : β → α}
    (ha : a.Lawful fits depth) (hmake : ∀ y, make (split y) = y) :
    (a.as make split).Lawful (fun y => fits (split y)) depth := by
  refine ⟨fun y => ha.length_outlines (split y), ?_, fun y => ha.within (split y)⟩
  intro f y
  show (a.read? ((a.outlines (split y)).map _)).map make = _
  rw [ha.read?_trees, Option.map_some, hmake]

end

end Fields

/-! ## Records -/

namespace Tree

/-- A name is found at its place. -/
theorem place?_text {front back : List String} {name : String} (hn : name ∉ front) :
    place? (front ++ name :: back) (.text name) = some (some front.length) := by
  have hfront : front.findIdx? (· == name) = none := by
    apply List.findIdx?_eq_none_iff.2
    intro other ho
    apply beq_false_of_ne
    rintro rfl
    exact hn ho
  show some ((front ++ name :: back).findIdx? (· == name)) = _
  rw [List.findIdx?_append, hfront, List.findIdx?_cons]
  simp

/-- The entries of a record are filed under their names, whatever names stand before them. -/
theorem file?_zip {front back : List String} {values : List Tree}
    (hn : (front ++ back).Nodup) (hl : values.length = back.length) :
    file? (front ++ back) ((back.map text).zip values) =
      some (front.map (fun _ => none) ++ values.map some) := by
  induction back generalizing front values with
  | nil =>
    rw [List.length_eq_zero_iff.1 hl, List.append_nil]
    simp [file?]
  | cons name back ih =>
    cases values with
    | nil => cases hl
    | cons value values =>
      have hname : name ∉ front := by
        intro h
        exact (List.nodup_append.1 hn).2.2 name h name List.mem_cons_self rfl
      have hnodup : ((front ++ [name]) ++ back).Nodup := by
        rw [List.append_assoc]
        exact hn
      have hrest := ih hnodup (Nat.succ.inj hl)
      rw [List.append_assoc, List.singleton_append, List.map_append, List.append_assoc] at hrest
      rw [List.map_cons, List.zip_cons_cons, file?, hrest, place?_text hname]
      simp

end Tree

namespace SerialShape

theorem lawful_record {α : Type} {fields : Fields Outline Tree α} {fits : α → Prop} {depth : Nat}
    (h : fields.Lawful fits depth)
    (hnames : fields.names.Nodup ∧ fields.names.length < 2 ^ 32 ∧
      ∀ name ∈ fields.names, (Utf8.encode name).length < 2 ^ 32) :
    (record fields).Lawful fits (depth + 1) := by
  constructor
  · intro f x
    have hl : ((fields.outlines x).map (Outline.tree f)).length = fields.names.length := by
      rw [List.length_map, h.length_outlines]
    have hfields : ((Outline.record (fields.names.zip (fields.outlines x))).tree f).fields?
        fields.names = some (((fields.outlines x).map (Outline.tree f)).map some) := by
      rw [Outline.tree]
      -- Fields with names are filed one by one, and fields without stand in order.
      cases f.isNamed with
      | true =>
        rw [if_pos rfl, Outline.treeEntries_zip]
        exact Tree.file?_zip (show ([] ++ fields.names).Nodup from hnames.1) hl
      | false =>
        rw [if_neg Bool.false_ne_true, Outline.treeValues_zip f (h.length_outlines x)]
        show (if _ then _ else _) = _
        rw [if_pos (Nat.le_of_eq hl), hl, Nat.sub_self, List.replicate_zero, List.append_nil]
    show (((Outline.record (fields.names.zip (fields.outlines x))).tree f).fields?
      fields.names).bind fields.read? = _
    rw [hfields, List.map_map]
    exact h.read?_trees f x
  · intro x hx
    refine ⟨?_, ?_⟩
    · rw [List.length_zip, h.length_outlines, Nat.min_self]
      exact hnames.2.1
    · rintro ⟨name, o⟩ ho
      exact ⟨hnames.2.2 name (List.of_mem_zip ho).1, h.within x hx o (List.of_mem_zip ho).2⟩

end SerialShape

end GameWire
