import GameWire.Capture.Format
import GameWire.Proofs.Frame

/-!
# Records in files of every version

`LaidRecord` is a record as it may lie in a file, whoever wrote it.  A reader takes a whole one off
the front and fails within a cut one.
-/

namespace GameWire

/-- A record as it lies in a file: its time is a number of seconds or of nanoseconds, and its
direction is any byte. -/
structure LaidRecord where
  time : Nat
  direction : UInt8
  data : Bytes

namespace LaidRecord

/-- The bytes of a time: seconds before version 2, and nanoseconds from it on. -/
def timeBytes (version : UInt8) (time : Nat) : Bytes :=
  if version < 2 then Bytes.le 8 time else Bytes.le 16 time

def body (r : LaidRecord) : Bytes :=
  r.direction :: (Bytes.le 8 r.data.length ++ r.data)

def bytes (version : UInt8) (r : LaidRecord) : Bytes :=
  timeBytes version r.time ++ r.body

/-- Whether the numbers in a record fit into their fields. -/
structure Fits (version : UInt8) (r : LaidRecord) : Prop where
  time : r.time < if version < 2 then 2 ^ 64 else 2 ^ 128
  data : r.data.length < 2 ^ 64

/-- The record that is meant. -/
def stored (version : UInt8) (r : LaidRecord) : StoredRecord where
  timestamp := if version < 2 then .ofSeconds (UInt64.ofNat r.time) else .ofNanos r.time
  direction := if r.direction = 0 then .toServer else .toClient
  data := r.data

variable {version : UInt8} {r : LaidRecord}

theorem length_timeBytes (version : UInt8) (time : Nat) :
    (timeBytes version time).length = StoredRecord.timestampLength version := by
  unfold timeBytes StoredRecord.timestampLength
  by_cases hv : version < 2
  · rw [if_pos hv, if_pos hv, Bytes.length_le]
  · rw [if_neg hv, if_neg hv, Bytes.length_le]

theorem timestampLength_pos (version : UInt8) : 0 < StoredRecord.timestampLength version := by
  unfold StoredRecord.timestampLength
  split <;> decide

theorem Fits.timestampOf_timeBytes (h : r.Fits version) :
    StoredRecord.timestampOf version (timeBytes version r.time) = (r.stored version).timestamp := by
  have htime := h.time
  unfold StoredRecord.timestampOf timeBytes stored
  by_cases hv : version < 2
  · rw [if_pos hv] at htime
    have hn : Bytes.ofLE (Bytes.le 8 r.time) = r.time := Bytes.ofLE_le htime
    simp only [if_pos hv, hn]
  · rw [if_neg hv] at htime
    have hn : Bytes.ofLE (Bytes.le 16 r.time) = r.time := Bytes.ofLE_le htime
    simp only [if_neg hv, hn]

end LaidRecord

namespace StoredRecord

/-! ## Frames -/

/-- The frames that are found in the data of a record: the whole ones, what is left behind them as
one more, and an empty one where there is no data at all. -/
def framesIn (data : Bytes) : List Bytes :=
  if data = [] then [[]]
  else if (splitFrames data).2 = [] then (splitFrames data).1
  else (splitFrames data).1 ++ [(splitFrames data).2]

theorem frames_eq (r : StoredRecord) : r.frames = framesIn r.data := by
  unfold frames framesIn
  by_cases hdata : r.data = []
  · rw [if_pos hdata, hdata, splitFrames_nil]
    rfl
  · have hflatten := flatten_splitFrames r.data
    rw [if_neg hdata]
    by_cases hrest : (splitFrames r.data).2 = []
    · have hwhole : (splitFrames r.data).1 ≠ [] := by
        intro hwhole
        rw [hwhole, hrest] at hflatten
        exact hdata hflatten.symm
      simp [hrest, hwhole]
    · simp [hrest]

theorem frames_ne_nil (r : StoredRecord) : r.frames ≠ [] := by
  unfold frames
  split
  rename_i whole rest _
  by_cases h : rest.isEmpty = true ∧ whole ≠ []
  · rw [if_pos h]
    exact h.2
  · rw [if_neg h]
    exact List.append_ne_nil_of_right_ne_nil _ (List.cons_ne_nil _ _)

/-! ## Reading whole records -/

theorem readTimestamp?_timeBytes {version : UInt8} {r : LaidRecord} (h : r.Fits version)
    (rest : Bytes) :
    readTimestamp? version { bytes := LaidRecord.timeBytes version r.time ++ rest } =
      .ok (some ((r.stored version).timestamp, { bytes := rest })) := by
  have hread := ByteSource.read_append (LaidRecord.timeBytes version r.time) rest none
  have hlength := LaidRecord.length_timeBytes version r.time
  have hne : (LaidRecord.timeBytes version r.time).isEmpty = false := by
    rw [List.isEmpty_eq_false_iff_exists_mem]
    apply List.exists_mem_of_length_pos
    rw [hlength]
    exact LaidRecord.timestampLength_pos version
  rw [hlength] at hread
  unfold readTimestamp?
  simp only [hread, hne, hlength, h.timestampOf_timeBytes, Bool.false_eq_true, if_false, if_true]

theorem readBody_body {version : UInt8} {r : LaidRecord} (h : r.Fits version) (rest : Bytes) :
    readBody (r.stored version).timestamp { bytes := r.body ++ rest } =
      .ok (r.stored version, { bytes := rest }) := by
  have hdirection := ByteSource.readExactly_append truncated [r.direction]
    (Bytes.le 8 r.data.length ++ (r.data ++ rest)) none
  have hlength := ByteSource.readExactly_append truncated (Bytes.le 8 r.data.length)
    (r.data ++ rest) none
  have hdata := ByteSource.readExactly_append truncated r.data rest none
  have hn : Bytes.ofLE (Bytes.le 8 r.data.length) = r.data.length := Bytes.ofLE_le h.data
  rw [Bytes.length_le] at hlength
  rw [List.length_singleton, List.singleton_append] at hdirection
  unfold readBody LaidRecord.body
  rw [List.cons_append, List.append_assoc]
  simp only [hdirection, hlength, hn, hdata, bind, Except.bind]
  rfl

/-- A whole record is taken off the front. -/
theorem read?_laid {version : UInt8} {r : LaidRecord} (h : r.Fits version) (rest : Bytes) :
    read? version { bytes := r.bytes version ++ rest } =
      .ok (some (r.stored version, { bytes := rest })) := by
  unfold read? LaidRecord.bytes
  simp only [List.append_assoc, readTimestamp?_timeBytes h, readBody_body h, bind, Except.bind,
    Functor.map, Except.map]

theorem read?_nil (version : UInt8) : read? version { bytes := [] } = .ok none := by
  have hread : ({ bytes := [] } : ByteSource).read (timestampLength version) =
      .ok ([], { bytes := [] }) := by
    unfold ByteSource.read
    simp
  unfold read? readTimestamp?
  simp only [hread]
  rfl

/-! ## Reading cut records -/

/-- A source that ends too early is not read. -/
theorem readExactly_of_length_lt {count : Nat} {bs : Bytes} (h : bs.length < count) :
    ByteSource.readExactly truncated count { bytes := bs } =
      .error (truncated count bs.length) := by
  unfold ByteSource.readExactly ByteSource.read
  simp only [List.take_of_length_le (Nat.le_of_lt h)]
  rw [if_neg (by omega)]

theorem exists_readBody_eq_error {version : UInt8} {r : LaidRecord} (h : r.Fits version)
    (timestamp : Timestamp) {kept : Nat} (hk : kept < r.body.length) :
    ∃ e, readBody timestamp { bytes := r.body.take kept } = .error e := by
  unfold LaidRecord.body at hk ⊢
  -- The cut is in front of the direction, within the length, or within the data.
  cases kept with
  | zero =>
    have hshort := readExactly_of_length_lt (show ([] : Bytes).length < 1 by decide)
    unfold readBody
    simp only [List.take_zero, hshort, bind, Except.bind]
    exact ⟨_, rfl⟩
  | succ kept =>
    have hdirection := ByteSource.readExactly_append truncated [r.direction]
      ((Bytes.le 8 r.data.length ++ r.data).take kept) none
    rw [List.length_singleton, List.singleton_append] at hdirection
    rw [List.length_cons, List.length_append, Bytes.length_le] at hk
    unfold readBody
    simp only [List.take_succ_cons, hdirection, bind, Except.bind]
    by_cases hl : kept < 8
    · have hshort : ((Bytes.le 8 r.data.length ++ r.data).take kept).length < 8 := by
        rw [List.length_take]
        omega
      simp only [readExactly_of_length_lt hshort]
      exact ⟨_, rfl⟩
    · have htake : (Bytes.le 8 r.data.length ++ r.data).take kept =
          Bytes.le 8 r.data.length ++ r.data.take (kept - 8) := by
        rw [List.take_append, Bytes.length_le, List.take_of_length_le]
        rw [Bytes.length_le]
        omega
      have hlength := ByteSource.readExactly_append truncated (Bytes.le 8 r.data.length)
        (r.data.take (kept - 8)) none
      have hn : Bytes.ofLE (Bytes.le 8 r.data.length) = r.data.length := Bytes.ofLE_le h.data
      have hshort : (r.data.take (kept - 8)).length < r.data.length := by
        rw [List.length_take]
        omega
      rw [Bytes.length_le] at hlength
      simp only [htake, hlength, hn, readExactly_of_length_lt hshort]
      exact ⟨_, rfl⟩

/-- A record of which something is there, but not all of it, is not read. -/
theorem exists_read?_eq_error {version : UInt8} {r : LaidRecord} (h : r.Fits version) {kept : Nat}
    (hpos : 0 < kept) (hk : kept < (r.bytes version).length) :
    ∃ e, read? version { bytes := (r.bytes version).take kept } = .error e := by
  have hlength := LaidRecord.length_timeBytes version r.time
  unfold LaidRecord.bytes at hk ⊢
  rw [List.length_append, hlength] at hk
  rw [List.take_append, hlength]
  -- The cut is within the timestamp or behind it.
  by_cases ht : kept < timestampLength version
  · have hnil : r.body.take (kept - timestampLength version) = [] := by
      rw [Nat.sub_eq_zero_of_le (Nat.le_of_lt ht), List.take_zero]
    have hfront : ((LaidRecord.timeBytes version r.time).take kept).length = kept := by
      rw [List.length_take, hlength]
      omega
    have hne : ((LaidRecord.timeBytes version r.time).take kept).isEmpty = false := by
      rw [List.isEmpty_eq_false_iff_exists_mem]
      apply List.exists_mem_of_length_pos
      rw [hfront]
      exact hpos
    have hread : ({ bytes := (LaidRecord.timeBytes version r.time).take kept } : ByteSource).read
        (timestampLength version) = .ok ((LaidRecord.timeBytes version r.time).take kept,
          { bytes := [] }) := by
      unfold ByteSource.read
      simp only []
      rw [List.take_of_length_le (by omega), List.drop_of_length_le (by omega)]
    rw [hnil, List.append_nil]
    unfold read? readTimestamp?
    simp only [hread, hne, hfront, Nat.ne_of_lt ht, Bool.false_eq_true, if_false]
    exact ⟨_, rfl⟩
  · rw [List.take_of_length_le (by omega)]
    have hbody : kept - timestampLength version < r.body.length := by omega
    obtain ⟨e, he⟩ := exists_readBody_eq_error h (r.stored version).timestamp hbody
    unfold read?
    simp only [readTimestamp?_timeBytes h, he, bind, Except.bind, Functor.map, Except.map]
    exact ⟨_, rfl⟩

end StoredRecord

end GameWire
