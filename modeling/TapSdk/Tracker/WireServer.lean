import TapSdk.Tracker.LogServer
import TapSdk.Tracker.WireFormat

/-!
# A server that decodes the wire formats

The decoders for `wireFormat`: log groups as they are serialized, and blocks of one run of literals.
-/

namespace TapSdk.Tracker

open Library Wire

/-- A log: its time comes first, if it has one. -/
def parseLog (bytes : List UInt8) : Option Log :=
  match readVarint bytes with
  | some (8, rest) => do
      let (time, rest) ← readVarint rest
      let contents ← (readFields rest).bind (parseRepeated 2)
      some ⟨UInt32.ofNat time, contents⟩
  | _ => do
      let contents ← (readFields bytes).bind (parseRepeated 2)
      some ⟨0, contents⟩

def parseGroup (bytes : List UInt8) : Option LogGroup := do
  let fields ← readFields bytes
  let logs ← (fields.filter fun field => field.1 = 1).mapM fun field => parseLog field.2
  some ⟨logs, lastValue 3 fields⟩

/-- The length bytes of a literal run, added up. -/
def readLz4Extra : List UInt8 → Option (Nat × List UInt8)
  | [] => none
  | byte :: rest =>
      if byte = 255 then (readLz4Extra rest).map fun (length, tail) => (length + 255, tail)
      else some (byte.toNat, rest)

def readLz4Literals (size : Nat) (block : List UInt8) : Option (List UInt8) :=
  match block with
  | [] => none
  | token :: rest => do
      let (length, literals) ←
        if token = 240 then (readLz4Extra rest).map fun (length, tail) => (length + 15, tail)
        else some (token.toNat / 16, rest)
      if length = literals.length ∧ length ≤ size then some literals else none

def wireServer (secret : Str → Option Str) : LogServer := ⟨secret, readLz4Literals, parseGroup⟩

/-! ### They undo the encoders -/

theorem parseRepeated_repeatedFields (contents : List TrackMsgContent) :
    (readFields ((repeatedFields 2 contents).flatMap Field.bytes)).bind (parseRepeated 2)
      = some contents := by
  rw [readFields_flatMap, Option.bind_some, parseRepeated, filter_repeatedFields, if_pos rfl,
    mapM_repeatedFields]

theorem readVarint_repeatedFields {contents : List TrackMsgContent} {rest : List UInt8} :
    readVarint ((repeatedFields 2 contents).flatMap Field.bytes) ≠ some (8, rest) := by
  cases contents with
  | nil => exact nofun
  | cons content contents =>
      rw [repeatedFields, List.map_cons, List.flatMap_cons, Field.bytes, List.append_assoc,
        List.append_assoc, readVarint_varint]
      simp

theorem parseLog_logBytes (log : Log) : parseLog (logBytes log) = some log := by
  obtain ⟨time, contents⟩ := log
  unfold logBytes parseLog
  by_cases htime : time = 0
  · subst htime
    rw [if_pos rfl, List.nil_append]
    split
    · next rest hread => exact absurd hread readVarint_repeatedFields
    · rw [parseRepeated_repeatedFields]
      rfl
  · rw [if_neg htime, List.append_assoc, readVarint_varint]
    simp only [readVarint_varint, parseRepeated_repeatedFields, Option.bind_eq_bind,
      Option.bind_some, UInt32.ofNat_toNat]

theorem mapM_logFields (logs : List Log) :
    (logs.map fun log => ((1, logBytes log) : Field)).mapM (fun field => parseLog field.2)
      = some logs := by
  induction logs with
  | nil => rfl
  | cons log logs ih =>
      rw [List.map_cons, List.mapM_cons, parseLog_logBytes, ih]
      rfl

theorem parseGroup_groupBytes (group : LogGroup) : parseGroup (groupBytes group) = some group := by
  obtain ⟨logs, topic⟩ := group
  have hlogs : (logs.map fun log => ((1, logBytes log) : Field)).filter (fun field => field.1 = 1)
      = logs.map fun log => ((1, logBytes log) : Field) := by
    apply List.filter_eq_self.mpr
    intro field hfield
    obtain ⟨log, -, rfl⟩ := List.mem_map.mp hfield
    rfl
  have htopic : (stringField 3 topic).filter (fun field => field.1 = 1) = [] := by
    unfold stringField
    split <;> rfl
  have hlast :
    lastValue 3 ((logs.map fun log => ((1, logBytes log) : Field)) ++ stringField 3 topic)
      = topic := by
    have hstart : (logs.map fun log => ((1, logBytes log) : Field)).foldl
        (fun value field => if field.1 = 3 then field.2 else value) [] = [] := by
      rw [List.foldl_map]
      simp
    rw [lastValue, List.foldl_append, hstart, foldl_stringField]
    by_cases hnil : topic = [] <;> simp [hnil]
  unfold parseGroup groupBytes
  rw [readFields_flatMap]
  simp only [Option.bind_eq_bind, Option.bind_some, List.filter_append, hlogs, htopic,
    List.append_nil, mapM_logFields, hlast]

theorem readLz4Extra_lz4Extra {fuel length : Nat} (h : length < fuel) (tail : List UInt8) :
    readLz4Extra (lz4Extra fuel length ++ tail) = some (length, tail) := by
  induction fuel generalizing length with
  | zero => cases h
  | succ fuel ih =>
      rw [lz4Extra]
      split
      · next hlt =>
          have hbyte : (UInt8.ofNat length).toNat = length := by
            rw [UInt8.toNat_ofNat']
            omega
          have hne : UInt8.ofNat length ≠ 255 := by
            intro heq
            rw [heq] at hbyte
            have hvalue : (255 : UInt8).toNat = 255 := rfl
            omega
          rw [List.singleton_append, readLz4Extra, if_neg hne, hbyte]
      · next hge =>
          rw [List.cons_append, readLz4Extra, if_pos rfl, ih (by omega), Option.map_some]
          simp only [Option.some.injEq, Prod.mk.injEq, and_true]
          omega

theorem readLz4Literals_lz4Literals {bytes : List UInt8} (h : lz4Literals bytes ≠ []) :
    readLz4Literals bytes.length (lz4Literals bytes) = some bytes := by
  unfold lz4Literals at h ⊢
  split at h
  · next hsize =>
      rw [if_pos hsize]
      by_cases hshort : bytes.length < 15
      · have htoken : (UInt8.ofNat (bytes.length * 16)).toNat = bytes.length * 16 := by
          rw [UInt8.toNat_ofNat']
          omega
        have hne : UInt8.ofNat (bytes.length * 16) ≠ 240 := by
          intro heq
          rw [heq] at htoken
          have hvalue : (240 : UInt8).toNat = 240 := rfl
          omega
        rw [if_pos hshort, List.singleton_append, readLz4Literals]
        simp only [if_neg hne, Option.bind_eq_bind, Option.bind_some, htoken]
        rw [if_pos (by omega)]
      · rw [if_neg hshort, List.cons_append, readLz4Literals]
        simp only [if_true, readLz4Extra_lz4Extra (show bytes.length - 15 < bytes.length by omega),
          Option.map_some, Option.bind_eq_bind, Option.bind_some]
        rw [if_pos (by omega)]
  · exact absurd rfl h

theorem length_lz4Extra (fuel length : Nat) : (lz4Extra fuel length).length ≤ length / 255 + 1 := by
  induction fuel generalizing length with
  | zero => exact Nat.zero_le _
  | succ fuel ih =>
      have hnext := ih (length - 255)
      rw [lz4Extra]
      split
      · rw [List.length_singleton]
        omega
      · rw [List.length_cons]
        omega

theorem length_lz4Literals (bytes : List UInt8) : (lz4Literals bytes).length ≤ 2147483647 := by
  have hextra := length_lz4Extra bytes.length (bytes.length - 15)
  unfold lz4Literals
  split
  · next hsize =>
      unfold lz4MaxInputSize at hsize
      rw [List.length_append]
      split
      · rw [List.length_singleton]
        omega
      · rw [List.length_cons]
        omega
  · exact Nat.zero_le _

theorem wireServer_decodes (secret : Str → Option Str) : (wireServer secret).Decodes wireFormat :=
  ⟨parseGroup_groupBytes, fun _ => readLz4Literals_lz4Literals, length_lz4Literals⟩

end TapSdk.Tracker
