import TapSdk.Tracker.Proof.Mapping

/-!
# The record area

What `Load` makes of the bytes behind the configuration. Its loop looks only at the `record_size`
bytes of the area, and on a concatenation of records as `Push` writes them it returns their
messages, in order, stamped anew.
-/

namespace TapSdk.Tracker

open Library

variable {ext : Externals} {memory memory' : Memory}

/-! ### One record -/

@[simp]
theorem recordMagic_length : recordMagic.length = 4 := rfl

theorem recordHeader_bytes_length (ext : Externals) (message : TrackMessageImpl) :
    (recordHeader ext message).bytes.length = recordHeaderSize := by
  simp [RecordHeader.bytes, recordHeader, recordHeaderSize]

@[simp]
theorem recordBytes_length (ext : Externals) (message : TrackMessageImpl) :
    (recordBytes ext message).length = recordHeaderSize + message.getSerializeSize ext := by
  rw [recordBytes, List.length_append, recordHeader_bytes_length, TrackMessageImpl.getSerializeSize]

theorem RecordHeader.decode_congr {offset : Nat}
    (h : ∀ i, offset ≤ i → i < offset + recordHeaderSize → memory i = memory' i) :
    RecordHeader.decode memory offset = RecordHeader.decode memory' offset := by
  have hread : ∀ start size, start + size ≤ recordHeaderSize →
      memory.read (offset + start) size = memory'.read (offset + start) size := by
    intro start size hle
    exact Memory.read_congr fun i hlow hhigh => h i (by omega) (by omega)
  have hmagic := hread 0 4 (by decide)
  rw [Nat.add_zero] at hmagic
  simp only [RecordHeader.decode, hmagic, hread 4 8 (by decide), hread 12 4 (by decide),
    hread 16 4 (by decide)]

theorem RecordHeader.decode_of_read {offset : Nat} {header : RecordHeader}
    (hmagic : header.magic.length = 4)
    (h : memory.read offset recordHeaderSize = header.bytes) :
    RecordHeader.decode memory offset = header := by
  have hpart : ∀ start size, start + size ≤ recordHeaderSize →
      memory.read (offset + start) size = (header.bytes.drop start).take size := by
    intro start size hle
    rw [← h, Memory.read_drop (by omega), Memory.read_take (by omega)]
  have h0 := hpart 0 4 (by decide)
  have h4 := hpart 4 8 (by decide)
  have h12 := hpart 12 4 (by decide)
  have h16 := hpart 16 4 (by decide)
  obtain ⟨magic, hash, length, time⟩ := header
  simp only [RecordHeader.bytes, Nat.add_zero, List.append_assoc] at hmagic h0 h4 h12 h16
  rw [List.drop_zero, List.take_left' hmagic] at h0
  rw [List.drop_left' hmagic, List.take_left' (length_le64 hash)] at h4
  have hdrop12 : (magic ++ (le64 hash ++ (le32 length ++ le32 time))).drop 12
      = le32 length ++ le32 time := by
    rw [← List.append_assoc, List.drop_left' (by simp [hmagic])]
  have hdrop16 : (magic ++ (le64 hash ++ (le32 length ++ le32 time))).drop 16 = le32 time := by
    rw [← List.append_assoc, ← List.append_assoc, List.drop_left' (by simp [hmagic])]
  rw [hdrop12, List.take_left' (length_le32 length)] at h12
  rw [hdrop16, List.take_of_length_le (by simp)] at h16
  simp only [RecordHeader.decode, h0, h4, h12, h16, fromLe64_le64, fromLe32_le32]

/-! ### The loop -/

variable {config : Option TrackerConfig} {clock : Nat → UInt32} {recordSize : Nat}

/-- `Load` depends on the bytes of the record area alone. -/
theorem loadLoop_congr (h : ∀ i, i < recordSize → memory i = memory' i)
    (remaining i readSize curOffset : Nat) :
    loadLoop ext memory recordSize config clock remaining i readSize curOffset
      = loadLoop ext memory' recordSize config clock remaining i readSize curOffset := by
  induction remaining generalizing i readSize curOffset with
  | zero => rfl
  | succ remaining ih =>
      unfold loadLoop
      by_cases hroom : curOffset + recordHeaderSize ≤ recordSize
      · have hheader : RecordHeader.decode memory curOffset
            = RecordHeader.decode memory' curOffset :=
          RecordHeader.decode_congr fun j _ hj => h j (by omega)
        simp only [hheader, ih]
        split
        · split
          · rfl
          · rename_i _ hfits
            have hdata : memory.read (curOffset + recordHeaderSize)
                  (RecordHeader.decode memory' curOffset).length.toNat
                = memory'.read (curOffset + recordHeaderSize)
                  (RecordHeader.decode memory' curOffset).length.toNat :=
              Memory.read_congr fun j _ hj => h j (by omega)
            rw [hdata]
        · rfl
      · -- no header fits any more, whatever its length field says
        have hstop : ∀ length, curOffset + recordHeaderSize + length > recordSize := by omega
        simp only [hstop, if_true]

/-- What becomes of stored messages when they are loaded: only the body comes back. -/
def restamp (config : Option TrackerConfig) (clock : Nat → UInt32) :
    Nat → List TrackMessageImpl → List TrackMessageImpl
  | _, [] => []
  | i, message :: rest => ⟨config, clock i, message.proto⟩ :: restamp config clock (i + 1) rest

theorem restamp_proto (i : Nat) (messages : List TrackMessageImpl) :
    (restamp config clock i messages).map (·.proto) = messages.map (·.proto) := by
  induction messages generalizing i with
  | nil => rfl
  | cons message rest ih => simp [restamp, ih]

theorem restamp_getElem? (i k : Nat) (messages : List TrackMessageImpl) :
    (restamp config clock i messages)[k]?
      = (messages[k]?).map fun message => ⟨config, clock (i + k), message.proto⟩ := by
  induction messages generalizing i k with
  | nil => rfl
  | cons message rest ih =>
      cases k with
      | zero => rfl
      | succ k =>
          rw [restamp, List.getElem?_cons_succ, List.getElem?_cons_succ, ih,
            show i + 1 + k = i + (k + 1) by omega]

def areaBytes (ext : Externals) (messages : List TrackMessageImpl) : List UInt8 :=
  messages.flatMap (recordBytes ext)

@[simp]
theorem areaBytes_nil : areaBytes ext [] = [] := rfl

theorem areaBytes_cons (message : TrackMessageImpl) (rest : List TrackMessageImpl) :
    areaBytes ext (message :: rest) = recordBytes ext message ++ areaBytes ext rest := rfl

theorem areaBytes_append (messages : List TrackMessageImpl) (message : TrackMessageImpl) :
    areaBytes ext (messages ++ [message]) = areaBytes ext messages ++ recordBytes ext message := by
  simp [areaBytes]

theorem length_le_areaBytes (ext : Externals) (messages : List TrackMessageImpl) :
    recordHeaderSize * messages.length ≤ (areaBytes ext messages).length := by
  induction messages with
  | nil => exact Nat.zero_le _
  | cons message rest ih =>
      rw [areaBytes_cons, List.length_append, recordBytes_length, List.length_cons, Nat.mul_succ]
      omega

/-- On the records of `messages`, one after the other, the loop returns as many of the messages as
it is told there are. A count above their number does no harm: `record_size` stops the loop. -/
theorem loadLoop_areaBytes_take (hlossless : ext.message.Lossless)
    (messages : List TrackMessageImpl) (count : Nat) {i offset : Nat}
    (hword : offset + (areaBytes ext messages).length < 2 ^ 32)
    (hread : memory.read offset (areaBytes ext messages).length = areaBytes ext messages) :
    loadLoop ext memory (offset + (areaBytes ext messages).length) config clock count i
      offset offset
      = restamp config clock i (messages.take count) := by
  induction messages generalizing i offset count with
  | nil => cases count <;> simp [loadLoop, restamp]
  | cons message rest ih =>
      cases count with
      | zero => rfl
      | succ count =>
          have hlength := recordBytes_length ext message
          have hheaderLength := recordHeader_bytes_length ext message
          have hpos : 0 < recordHeaderSize := by decide
          simp only [areaBytes_cons, List.length_append] at hword hread ⊢
          rw [Memory.read_add] at hread
          obtain ⟨hrecord, htail⟩ := List.append_inj hread (by simp)
          -- the record splits into its header and its data
          rw [hlength, Memory.read_add, recordBytes] at hrecord
          obtain ⟨hheader, hdata⟩ := List.append_inj hrecord (by simp [hheaderLength])
          have hdecode : RecordHeader.decode memory offset = recordHeader ext message :=
            RecordHeader.decode_of_read rfl hheader
          have hsize : (recordHeader ext message).length.toNat = message.getSerializeSize ext := by
            simp only [recordHeader, UInt32.toNat_ofNat']
            omega
          have hstep : offset + ((recordBytes ext message).length + (areaBytes ext rest).length)
              = offset + (recordBytes ext message).length + (areaBytes ext rest).length := by omega
          have hrest :=
            @ih count (i + 1) (offset + (recordBytes ext message).length) (by omega) htail
          have hmagic : (recordHeader ext message).magic = recordMagic := rfl
          have hhash : (recordHeader ext message).hash
              = cityHash64 (ext.message.serialize message.proto) := rfl
          rw [hstep, loadLoop, if_pos (by omega)]
          simp only [hdecode, hsize, ← hlength, hrest, hdata, hmagic, hhash, ne_eq,
            not_true_eq_false, if_false, hlossless message.proto]
          rw [if_neg (by omega)]
          rfl

end TapSdk.Tracker
