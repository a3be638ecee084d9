import GameWire.Capture.File

/-!
# Files that fail

Any write to a file may fail, and leave a part of its bytes behind, and so may any seek.  A write
always stores the first of its bytes, and writing at another place that fails before it has moved
there changes nothing.
-/

namespace GameWire

namespace ScriptedFile

/-- Whether a file is written next between certain bytes. -/
structure StandsBetween (f : ScriptedFile) (front back : Bytes) : Prop where
  content : f.content = front ++ back
  position : f.position = front.length

variable {f : ScriptedFile} {front back : Bytes}

/-- An answer uses up nothing but the script. -/
theorem exists_answer (f : ScriptedFile) : ∃ a answers, f.answer = (a, { f with answers }) := by
  unfold answer
  cases f.answers with
  | nil => exact ⟨.success, f.answers, rfl⟩
  | cons a answers => exact ⟨a, answers, rfl⟩

theorem StandsBetween.store (h : f.StandsBetween front back) (bs : Bytes) :
    (f.store bs).StandsBetween (front ++ bs) (back.drop bs.length) where
  content := by
    unfold ScriptedFile.store
    simp [h.content, h.position, Bytes.zeros]
  position := by
    show f.position + bs.length = _
    rw [h.position, List.length_append]

/-- A write stores a part of the bytes, and all of them if it succeeds. -/
theorem StandsBetween.write (h : f.StandsBetween front back) (bs : Bytes) :
    ∃ part, part <+: bs ∧ (f.write bs).2.StandsBetween (front ++ part) (back.drop part.length) ∧
      ((f.write bs).1 = .ok () → part = bs) := by
  obtain ⟨a, answers, hanswer⟩ := f.exists_answer
  have h' : StandsBetween { f with answers } front back := ⟨h.content, h.position⟩
  unfold ScriptedFile.write
  by_cases hb : bs.isEmpty
  · rw [if_pos hb, List.isEmpty_iff.1 hb]
    exact ⟨[], List.nil_prefix, by rw [List.append_nil]; exact h, fun _ => rfl⟩
  · rw [if_neg hb, hanswer]
    cases a with
    | failure e stored =>
      exact ⟨bs.take stored, List.take_prefix stored bs, h'.store _, fun hok => nomatch hok⟩
    | success =>
      cases f.refusal? bs.length with
      | some e =>
        exact ⟨[], List.nil_prefix, by rw [List.append_nil]; exact h', fun hok => nomatch hok⟩
      | none => exact ⟨bs, List.prefix_refl bs, h'.store bs, fun _ => rfl⟩

theorem StandsBetween.writeAll (h : f.StandsBetween front back) (parts : List Bytes) :
    ∃ part, part <+: parts.flatten ∧
      (f.writeAll parts).2.StandsBetween (front ++ part) (back.drop part.length) ∧
      ((f.writeAll parts).1 = .ok () → part = parts.flatten) := by
  induction parts generalizing f front back with
  | nil => exact ⟨[], List.nil_prefix, by rw [List.append_nil]; exact h, fun _ => rfl⟩
  | cons bs parts ih =>
    obtain ⟨part, hprefix, hstands, hwhole⟩ := h.write bs
    unfold ScriptedFile.writeAll
    rw [List.flatten_cons]
    cases hwrite : f.write bs with
    | mk result f' =>
      rw [hwrite] at hstands hwhole
      cases result with
      | error e =>
        exact ⟨part, hprefix.trans (List.prefix_append _ _), hstands, fun hok => nomatch hok⟩
      | ok u =>
        obtain ⟨more, hmore, hstands', hwhole'⟩ := ih hstands
        have hpart : part = bs := hwhole rfl
        subst hpart
        refine ⟨part ++ more, (List.prefix_append_right_inj part).2 hmore, ?_, ?_⟩
        · rw [← List.append_assoc, List.length_append, ← List.drop_drop]
          exact hstands'
        · intro hok
          rw [hwhole' hok]

/-- Whether writing bytes at another place fails behind the move to that place. -/
def StraysAt (f : ScriptedFile) (place : Nat) (bs : Bytes) : Prop :=
  (∃ position, f.tell.1 = .ok position) ∧ (f.tell.2.seek place).1 = .ok () ∧
    ∃ e, (f.writeAt place bs).1 = .error e

/-- Telling the position moves nothing. -/
theorem exists_tell (f : ScriptedFile) :
    ∃ answers, f.tell = (.ok f.position, { f with answers }) ∨
      ∃ e, f.tell = (.error e, { f with answers }) := by
  obtain ⟨a, answers, hanswer⟩ := f.exists_answer
  unfold tell
  rw [hanswer]
  cases a with
  | failure e stored => exact ⟨answers, .inr ⟨e, rfl⟩⟩
  | success => exact ⟨answers, .inl rfl⟩

/-- A seek that fails moves nothing. -/
theorem exists_seek (f : ScriptedFile) (place : Nat) :
    ∃ answers, f.seek place = (.ok (), { f with answers, position := place }) ∨
      ∃ e, f.seek place = (.error e, { f with answers }) := by
  obtain ⟨a, answers, hanswer⟩ := f.exists_answer
  unfold seek
  rw [hanswer]
  cases a with
  | failure e stored => exact ⟨answers, .inr ⟨e, rfl⟩⟩
  | success => exact ⟨answers, .inl rfl⟩

/-- Unless it strays, writing at another place that fails changes nothing in the file and does not
move. -/
theorem writeAt_of_error {place : Nat} {bs : Bytes} (hs : ¬ f.StraysAt place bs) {e : IoError}
    (he : (f.writeAt place bs).1 = .error e) :
    (f.writeAt place bs).2.content = f.content ∧ (f.writeAt place bs).2.position = f.position := by
  obtain ⟨answers, htell | ⟨e', htell⟩⟩ := f.exists_tell
  · obtain ⟨answers', hseek | ⟨e', hseek⟩⟩ := exists_seek { f with answers } place
    · exact absurd ⟨⟨_, by rw [htell]⟩, by rw [htell, hseek], e, he⟩ hs
    · unfold writeAt
      simp only [htell, hseek, and_self]
  · unfold writeAt
    simp only [htell, and_self]

/-- Writing at another place succeeds only if the bytes are written there, and comes back then. -/
theorem exists_write_of_writeAt {place : Nat} {bs : Bytes}
    (hok : (f.writeAt place bs).1 = .ok ()) :
    ∃ answers answers' f', write { f with answers, position := place } bs = (.ok (), f') ∧
      (f.writeAt place bs).2 = { f' with position := f.position, answers := answers' } := by
  unfold writeAt at hok ⊢
  obtain ⟨answers, htell | ⟨e, htell⟩⟩ := f.exists_tell
  · obtain ⟨answers', hseek | ⟨e, hseek⟩⟩ := exists_seek { f with answers } place
    · simp only [htell, hseek] at hok ⊢
      cases hwrite : write { f with position := place, answers := answers' } bs with
      | mk result f' =>
        simp only [hwrite] at hok
        cases result with
        | error e => cases hok
        | ok u =>
          obtain ⟨answers'', hback | ⟨e, hback⟩⟩ := f'.exists_seek f.position
          · exact ⟨answers', answers'', f', hwrite, by simp only [hback]⟩
          · simp only [hback] at hok
            cases hok
    · simp only [htell, hseek] at hok
      cases hok
  · simp only [htell] at hok
    cases hok

/-- Writing at another place that succeeds puts the bytes there and comes back. -/
theorem StandsBetween.writeAt {before old after new : Bytes}
    (h : f.StandsBetween (before ++ (old ++ after)) back) (hlength : new.length = old.length)
    (hok : (f.writeAt before.length new).1 = .ok ()) :
    (f.writeAt before.length new).2.StandsBetween (before ++ (new ++ after)) back := by
  obtain ⟨answers, answers', f', hwrite, hafter⟩ := exists_write_of_writeAt hok
  have hthere : StandsBetween { f with answers, position := before.length } before
      (old ++ (after ++ back)) := by
    refine ⟨?_, rfl⟩
    show f.content = _
    rw [h.content]
    simp only [List.append_assoc]
  obtain ⟨part, -, hstands, hwhole⟩ := hthere.write new
  rw [hwrite] at hstands hwhole
  rw [hwhole rfl, hlength, List.drop_left] at hstands
  rw [hafter]
  refine ⟨?_, ?_⟩
  · show f'.content = _
    rw [hstands.content]
    simp only [List.append_assoc]
  · show f.position = _
    rw [h.position]
    simp only [List.length_append, hlength]

end ScriptedFile

end GameWire
