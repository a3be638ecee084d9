import GameWire.Proofs.Toml.Document
import GameWire.Settings.Shape

/-!
# Settings and what is found of them

A shape keeps its settings if it recognises them in what it outlines them as, which can be written
for just those that fit a document.  Putting shapes together into sections keeps both.
-/

namespace GameWire

/-- Whether a time has no part below a millisecond. -/
def Duration.IsWhole (d : Duration) : Prop := d = .ofMillis d.toMillis

theorem Duration.isWhole_ofMillis (n : Nat) : (Duration.ofMillis n).IsWhole :=
  congrArg Duration.ofMillis (Duration.toMillis_ofMillis n).symm

/-- Whether just the settings that fit can be written, at most `depth` levels deep, and those that a
document has room for are recognised. -/
structure SettingShape.Keeps {α : Type} (s : SettingShape α) (fits exact : α → Prop)
    (depth : Nat) : Prop where
  isSome_write (x : α) (v : Toml.Value) : s.outline x = some v →
    ((Toml.write? v).isSome = true ↔ fits x)
  depth_le (x : α) (v : Toml.Value) : s.outline x = some v → v.depth ≤ depth
  read?_outline (x : α) (v : Toml.Value) : fits x → exact x → s.outline x = some v →
    s.read? v = some x

/-- The same of the settings of a section. -/
structure Fields.Keeps {α : Type} (fields : SettingShape.Section α) (fits exact : α → Prop)
    (depth : Nat) : Prop where
  length_outlines (x : α) : (fields.outlines x).length = fields.names.length
  isSome_write (x : α) :
    (∀ v, some v ∈ fields.outlines x → (Toml.write? v).isSome = true) ↔ fits x
  depth_le (x : α) (v : Toml.Value) : some v ∈ fields.outlines x → v.depth ≤ depth
  read?_outlines (x : α) : fits x → exact x → fields.read? (fields.outlines x) = some x

/-- Whether a setting is never left out. -/
def SettingShape.IsTotal {α : Type} (s : SettingShape α) : Prop := ∀ x, s.outline x ≠ none

namespace SettingShape

/-- What holds of every setting of a type. -/
abbrev Any {α : Type} (_ : α) : Prop := True

/-! ## Single settings -/

section Single

variable {depth : Nat}

-- A setting that is outlined as one value, which can always be written.
theorem keeps_of {α : Type} {outline : α → Toml.Value} {read? : Toml.Value → Option α}
    (hwrite : ∀ x, (Toml.write? (outline x)).isSome = true)
    (hdepth : ∀ x, (outline x).depth = 0) (hread : ∀ x, read? (outline x) = some x) :
    Keeps ⟨fun x => some (outline x), read?⟩ Any Any depth where
  isSome_write x v h := by
    obtain rfl := Option.some.inj h
    exact iff_of_true (hwrite x) trivial
  depth_le x v h := by
    obtain rfl := Option.some.inj h
    rw [hdepth x]
    exact Nat.zero_le depth
  read?_outline x v _ _ h := by
    obtain rfl := Option.some.inj h
    exact hread x

theorem keeps_truth : truth.Keeps Any Any depth :=
  keeps_of (fun b => by cases b <;> rfl) (fun _ => rfl) fun _ => rfl

theorem keeps_text : text.Keeps Any Any depth :=
  keeps_of (fun _ => rfl) (fun _ => rfl) fun _ => rfl

theorem keeps_choice {α : Type} {key : α → String} {ofKey? : String → Option α}
    (h : ∀ x, ofKey? (key x) = some x) : (choice key ofKey?).Keeps Any Any depth :=
  keeps_of (fun _ => rfl) (fun _ => rfl) h

theorem logLevelOfText?_key (l : LogLevel) : logLevelOfText? l.key = some l := by
  have hnumber : unsigned? l.key = none := by cases l <;> rfl
  have hlower : l.key.map Char.toLower = l.key := by
    rw [← String.toList_inj, String.toList_map]
    cases l <;> rfl
  unfold logLevelOfText?
  rw [hnumber, hlower]
  cases l <;> rfl

theorem keeps_logLevel : logLevel.Keeps Any Any depth :=
  keeps_of (fun _ => rfl) (fun _ => rfl) logLevelOfText?_key

theorem isSome_write?_integer (n : Int) :
    (Toml.write? (.integer n)).isSome = true ↔ -2 ^ 63 ≤ n ∧ n < 2 ^ 63 := by
  have hrange : Toml.isInRange n = true ↔ -2 ^ 63 ≤ n ∧ n < 2 ^ 63 := by
    simp [Toml.isInRange]
  rw [← hrange]
  unfold Toml.write?
  split <;> simp_all

theorem keeps_level : level.Keeps Any Any depth := by
  have hlow (n : Int32) : -2 ^ 31 ≤ n.toInt := Int32.le_toInt n
  have hhigh (n : Int32) : n.toInt < 2 ^ 31 := Int32.toInt_lt n
  apply keeps_of
  · intro n
    rw [isSome_write?_integer]
    have := hlow n
    have := hhigh n
    omega
  · exact fun _ => rfl
  · intro n
    show (if -2 ^ 31 ≤ n.toInt ∧ n.toInt < 2 ^ 31 then some (Int32.ofInt n.toInt) else none) = _
    rw [if_pos ⟨hlow n, hhigh n⟩, Int32.ofInt_toInt]

theorem read?_size {n : Int} (hlow : 0 ≤ n) (hhigh : n < 2 ^ 64) :
    size.read? (.integer n) = some n.toNat :=
  if_pos ⟨hlow, hhigh⟩

theorem keeps_size : size.Keeps (· < 2 ^ 63) Any depth where
  isSome_write n v h := by
    obtain rfl := Option.some.inj h
    rw [isSome_write?_integer]
    omega
  depth_le n v h := by
    obtain rfl := Option.some.inj h
    exact Nat.zero_le depth
  read?_outline n v hn _ h := by
    obtain rfl := Option.some.inj h
    exact read?_size (Int.natCast_nonneg n) (by omega)

theorem keeps_duration : duration.Keeps (·.toMillis < 2 ^ 63) Duration.IsWhole depth where
  isSome_write d v h := by
    obtain rfl := Option.some.inj h
    rw [isSome_write?_integer]
    omega
  depth_le d v h := by
    obtain rfl := Option.some.inj h
    exact Nat.zero_le depth
  read?_outline d v hd hwhole h := by
    obtain rfl := Option.some.inj h
    have hmin : min (d.toMillis : Int) (2 ^ 64 - 1) = d.toMillis := by omega
    simp only [duration, hmin]
    rw [read?_size (Int.natCast_nonneg _) (by omega)]
    exact congrArg some hwhole.symm

end Single

/-! ## Lists and settings left out -/

theorem Keeps.list {α : Type} {item : SettingShape α} {depth : Nat} (h : item.Keeps Any Any depth)
    (htotal : item.IsTotal) : (list item).Keeps Any Any (depth + 1) where
  isSome_write xs v hv := by
    obtain rfl := Option.some.inj hv
    refine iff_of_true (Toml.isSome_write?_array fun v hv => ?_) trivial
    obtain ⟨x, -, hx⟩ := List.mem_filterMap.mp hv
    exact (h.isSome_write x v hx).mpr trivial
  depth_le xs v hv := by
    obtain rfl := Option.some.inj hv
    refine Nat.succ_le_succ (Toml.depthOf_le fun v hv => ?_)
    obtain ⟨x, -, hx⟩ := List.mem_filterMap.mp hv
    exact h.depth_le x v hx
  read?_outline xs v _ _ hv := by
    obtain rfl := Option.some.inj hv
    show (xs.filterMap item.outline).mapM item.read? = some xs
    induction xs with
    | nil => rfl
    | cons x xs ih =>
      obtain ⟨v, hv⟩ := Option.ne_none_iff_exists'.mp (htotal x)
      rw [List.filterMap_cons_some hv, List.mapM_cons, ih trivial trivial rfl,
        h.read?_outline x v trivial trivial hv]
      rfl

theorem Keeps.maybe {α : Type} {item : SettingShape α} {depth : Nat}
    (h : item.Keeps Any Any depth) : (maybe item).Keeps Any Any depth where
  isSome_write x v hv := by
    obtain ⟨y, rfl, hy⟩ := Option.bind_eq_some_iff.mp hv
    exact h.isSome_write y v hy
  depth_le x v hv := by
    obtain ⟨y, rfl, hy⟩ := Option.bind_eq_some_iff.mp hv
    exact h.depth_le y v hy
  read?_outline x v _ _ hv := by
    obtain ⟨y, rfl, hy⟩ := Option.bind_eq_some_iff.mp hv
    show (item.read? v).map some = _
    rw [h.read?_outline y v trivial trivial hy]
    rfl

theorem IsTotal.eq_none {α : Type} {item : SettingShape α} (h : item.IsTotal) {x : Option α}
    (hx : (maybe item).outline x = none) : x = none := by
  cases x with
  | none => rfl
  | some y => exact absurd hx (h y)

end SettingShape

/-! ## Sections -/

namespace Fields

section

variable {α β : Type} {fits exact : α → Prop} {depth : Nat}

theorem Keeps.required {name : String} {shape : SettingShape α} (h : shape.Keeps fits exact depth)
    (htotal : shape.IsTotal) : (Fields.required name shape).Keeps fits exact depth where
  length_outlines _ := rfl
  isSome_write x := by
    obtain ⟨v, hv⟩ := Option.ne_none_iff_exists'.mp (htotal x)
    rw [← h.isSome_write x v hv]
    simp [Fields.required, hv]
  depth_le x v hv := h.depth_le x v (List.mem_singleton.mp hv).symm
  read?_outlines x hfits hexact := by
    obtain ⟨v, hv⟩ := Option.ne_none_iff_exists'.mp (htotal x)
    simp only [Fields.required, hv]
    exact h.read?_outline x v hfits hexact hv

theorem Keeps.optional {name : String} {shape : SettingShape α} {default : α}
    (h : shape.Keeps fits exact depth) (hfits : fits default)
    (hdefault : ∀ x, shape.outline x = .none → x = default) :
    (Fields.optional name shape default).Keeps fits exact depth where
  length_outlines _ := rfl
  isSome_write x := by
    cases hv : shape.outline x with
    | none =>
      obtain rfl := hdefault x hv
      simp [Fields.optional, hv, hfits]
    | some v =>
      rw [← h.isSome_write x v hv]
      simp [Fields.optional, hv]
  depth_le x v hv := h.depth_le x v (List.mem_singleton.mp hv).symm
  read?_outlines x hx hexact := by
    cases hv : shape.outline x with
    | none =>
      obtain rfl := hdefault x hv
      simp only [Fields.optional, hv]
    | some v =>
      simp only [Fields.optional, hv]
      exact h.read?_outline x v hx hexact hv

theorem Keeps.both {a : SettingShape.Section α} {b : SettingShape.Section β}
    {fits' exact' : β → Prop} (ha : a.Keeps fits exact depth) (hb : b.Keeps fits' exact' depth) :
    (a.both b).Keeps (fun x => fits x.1 ∧ fits' x.2) (fun x => exact x.1 ∧ exact' x.2) depth where
  length_outlines x := by
    show (a.outlines x.1 ++ b.outlines x.2).length = (a.names ++ b.names).length
    rw [List.length_append, List.length_append, ha.length_outlines, hb.length_outlines]
  isSome_write x := by
    rw [← ha.isSome_write, ← hb.isSome_write]
    simp only [Fields.both, List.mem_append, or_imp, forall_and]
  depth_le x v hv := by
    cases List.mem_append.mp hv with
    | inl hv => exact ha.depth_le x.1 v hv
    | inr hv => exact hb.depth_le x.2 v hv
  read?_outlines x hfits hexact := by
    show (a.read? ((a.outlines x.1 ++ b.outlines x.2).take a.names.length) >>= fun _ =>
      b.read? ((a.outlines x.1 ++ b.outlines x.2).drop a.names.length) >>= _) = _
    rw [← ha.length_outlines x.1, List.take_left, List.drop_left,
      ha.read?_outlines x.1 hfits.1 hexact.1]
    show (b.read? _ >>= _) = _
    rw [hb.read?_outlines x.2 hfits.2 hexact.2]
    rfl

theorem Keeps.as {a : SettingShape.Section α} {make : α → β} {split : β → α}
    (ha : a.Keeps fits exact depth) (hmake : ∀ y, make (split y) = y) :
    (a.as make split).Keeps (fun y => fits (split y)) (fun y => exact (split y)) depth where
  length_outlines y := ha.length_outlines (split y)
  isSome_write y := ha.isSome_write (split y)
  depth_le y := ha.depth_le (split y)
  read?_outlines y hfits hexact := by
    show (a.read? (a.outlines (split y))).map make = _
    rw [ha.read?_outlines (split y) hfits hexact, Option.map_some, hmake]

theorem Keeps.congr {fields : SettingShape.Section α} {fits' exact' : α → Prop}
    (h : fields.Keeps fits exact depth) (hfits : ∀ x, fits x ↔ fits' x)
    (hexact : ∀ x, exact' x → exact x) : fields.Keeps fits' exact' depth where
  length_outlines := h.length_outlines
  isSome_write x := (h.isSome_write x).trans (hfits x)
  depth_le := h.depth_le
  read?_outlines x hx he := h.read?_outlines x ((hfits x).mpr hx) (hexact x he)

end

end Fields

/-! ## Entries -/

namespace SettingShape

section

variable {α : Type} {fields : Section α} {fits exact : α → Prop} {depth : Nat}

/-- The entries of names with values, without those that have none. -/
def pairs (names : List String) (values : List (Option Toml.Value)) :
    List (String × Toml.Value) :=
  (names.zip values).filterMap fun (name, value?) => value?.map fun value => (name, value)

theorem pairs_cons (name : String) (names : List String) (value? : Option Toml.Value)
    (values : List (Option Toml.Value)) :
    pairs (name :: names) (value? :: values) =
      (value?.map fun value => (name, value)).toList ++ pairs names values := by
  cases value? <;> rfl

theorem names_of_pairs {names : List String} {values : List (Option Toml.Value)} :
    ((pairs names values).map Prod.fst).Sublist names := by
  induction names generalizing values with
  | nil => exact List.nil_sublist _
  | cons name names ih =>
    cases values with
    | nil => exact List.nil_sublist _
    | cons value? values =>
      rw [pairs_cons, List.map_append]
      cases value? with
      | none => exact ih.cons name
      | some value => exact ih.cons_cons name

theorem mem_of_mem_pairs {names : List String} {values : List (Option Toml.Value)}
    {entry : String × Toml.Value} (h : entry ∈ pairs names values) : some entry.2 ∈ values := by
  obtain ⟨⟨name, value?⟩, hmem, hentry⟩ := List.mem_filterMap.mp h
  obtain ⟨value, rfl, rfl⟩ := Option.map_eq_some_iff.mp hentry
  exact (List.of_mem_zip hmem).2

theorem exists_mem_pairs {names : List String} {values : List (Option Toml.Value)}
    (hlength : values.length = names.length) {v : Toml.Value} (hv : some v ∈ values) :
    ∃ name, (name, v) ∈ pairs names values := by
  induction values generalizing names with
  | nil => exact absurd hv List.not_mem_nil
  | cons value? values ih =>
    cases names with
    | nil => exact nomatch hlength
    | cons name names =>
      rw [pairs_cons]
      cases List.mem_cons.mp hv with
      | inl hv =>
        subst hv
        exact ⟨name, List.mem_append_left _ (List.mem_singleton.mpr rfl)⟩
      | inr hv =>
        obtain ⟨name', hmem⟩ := ih (Nat.succ.inj hlength) hv
        exact ⟨name', List.mem_append_right _ hmem⟩

/-- Each name finds its own value. -/
theorem lookup_pairs {names : List String} {values : List (Option Toml.Value)}
    (hnames : names.Nodup) (hlength : values.length = names.length) :
    (names.map fun name => (pairs names values).lookup name) = values := by
  induction names generalizing values with
  | nil => exact (List.length_eq_zero_iff.mp hlength).symm
  | cons name names ih =>
    cases values with
    | nil => exact nomatch hlength
    | cons value? values =>
      obtain ⟨hname, hnodup⟩ := List.nodup_cons.mp hnames
      have hrest := ih hnodup (Nat.succ.inj hlength)
      rw [pairs_cons]
      cases value? with
      | none =>
        have hmissing : (pairs names values).lookup name = none :=
          Toml.lookup_eq_none fun hmem => hname (names_of_pairs.subset hmem)
        exact List.cons_eq_cons.mpr ⟨hmissing, hrest⟩
      | some value =>
        refine List.cons_eq_cons.mpr ⟨List.lookup_cons_self, Eq.trans ?_ hrest⟩
        refine List.map_congr_left fun other hother => ?_
        have hne : (other == name) = false := beq_false_of_ne fun h => hname (h ▸ hother)
        show ((name, value) :: pairs names values).lookup other = _
        rw [List.lookup_cons, hne]

/-! ## Whole sections -/

theorem entries_eq_pairs (x : α) : entries fields x = pairs fields.names (fields.outlines x) := rfl

theorem isSome_write_entries (h : fields.Keeps fits exact depth) (x : α) :
    (∀ entry ∈ entries fields x, (Toml.write? entry.2).isSome = true) ↔ fits x := by
  rw [← h.isSome_write x]
  constructor
  · intro hentries v hv
    obtain ⟨name, hmem⟩ := exists_mem_pairs (h.length_outlines x) hv
    exact hentries (name, v) hmem
  · intro hvalues entry hentry
    exact hvalues entry.2 (mem_of_mem_pairs hentry)

theorem legibleSection_entries (h : fields.Keeps fits exact depth)
    (hbare : ∀ name ∈ fields.names, Toml.IsBareName name) (hnames : fields.names.Nodup)
    (hdepth : depth ≤ Toml.maxDepth - 1) (x : α) : Toml.LegibleSection (entries fields x) where
  bare entry hentry :=
    hbare entry.1 (names_of_pairs.subset (List.mem_map_of_mem hentry))
  depth entry hentry := Nat.le_trans (h.depth_le x entry.2 (mem_of_mem_pairs hentry)) hdepth
  nodup := names_of_pairs.nodup hnames

/-- The settings of a section are found in its table. -/
theorem read?_table (h : fields.Keeps fits exact depth) (hnames : fields.names.Nodup) {x : α}
    (hfits : fits x) (hexact : exact x) :
    (table fields).read? (.table (entries fields x)) = some x := by
  show fields.read? (fields.names.map fun name => (entries fields x).lookup name) = some x
  rw [entries_eq_pairs, lookup_pairs hnames (h.length_outlines x)]
  exact h.read?_outlines x hfits hexact

end

end SettingShape

end GameWire
