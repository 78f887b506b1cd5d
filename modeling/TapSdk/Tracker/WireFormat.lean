import TapSdk.Tracker.DiskCache

/-!
# The wire formats

The encodings behind `Externals`, for the messages of `tracker/proto`: repeated messages and strings
as length-delimited fields, defaults left out. LZ4 is given by its encoding of an input without
matches, one run of literals. Beside them stand the outcomes of a run in which every file operation
succeeds.
-/

namespace TapSdk.Tracker

open Library Wire

/-- `TrackMsgContent` and `LogContent`, which agree on the wire. -/
def contentBytes (content : TrackMsgContent) : List UInt8 :=
  (stringField 1 content.key ++ stringField 2 content.value).flatMap Field.bytes

def parseContent (bytes : List UInt8) : Option TrackMsgContent :=
  (readFields bytes).map fun fields => ⟨lastValue 1 fields, lastValue 2 fields⟩

theorem parseContent_contentBytes (content : TrackMsgContent) :
    parseContent (contentBytes content) = some content := by
  obtain ⟨key, value⟩ := content
  rw [parseContent, contentBytes, readFields_flatMap, Option.map_some]
  simp only [lastValue, List.foldl_append, foldl_stringField]
  by_cases hkey : key = [] <;> by_cases hvalue : value = [] <;> simp [hkey, hvalue]

/-- The elements of a repeated message field, in order. -/
def parseRepeated (number : Nat) (fields : List Field) : Option (List TrackMsgContent) :=
  (fields.filter fun field => field.1 = number).mapM fun field => parseContent field.2

def repeatedFields (number : Nat) (contents : List TrackMsgContent) : List Field :=
  contents.map fun content => (number, contentBytes content)

theorem filter_repeatedFields (number wanted : Nat) (contents : List TrackMsgContent) :
    ((repeatedFields number contents).filter fun field => field.1 = wanted)
      = if number = wanted then repeatedFields number contents else [] := by
  split
  · rename_i heq
    apply List.filter_eq_self.mpr
    intro field hfield
    obtain ⟨content, _, rfl⟩ := List.mem_map.mp hfield
    simpa using heq
  · rename_i hne
    apply List.filter_eq_nil_iff.mpr
    intro field hfield
    obtain ⟨content, _, rfl⟩ := List.mem_map.mp hfield
    simpa using hne

theorem mapM_repeatedFields (number : Nat) (contents : List TrackMsgContent) :
    (repeatedFields number contents).mapM (fun field => parseContent field.2) = some contents := by
  induction contents with
  | nil => rfl
  | cons content contents ih =>
      rw [repeatedFields, List.map_cons, List.mapM_cons, parseContent_contentBytes]
      simp only [repeatedFields] at ih
      simp [ih]

def messageCodec : Codec TrackMsgCacheProto where
  serialize proto :=
    (repeatedFields 1 proto.logContents ++ repeatedFields 2 proto.logCommons).flatMap Field.bytes
  parse bytes := do
    let fields ← readFields bytes
    let contents ← parseRepeated 1 fields
    let commons ← parseRepeated 2 fields
    some ⟨contents, commons⟩

theorem messageCodec_lossless : messageCodec.Lossless := by
  intro proto
  let fields := repeatedFields 1 proto.logContents ++ repeatedFields 2 proto.logCommons
  have hcontents : parseRepeated 1 fields = some proto.logContents := by
    rw [parseRepeated, List.filter_append, filter_repeatedFields, filter_repeatedFields,
      if_pos rfl, if_neg (by decide), List.append_nil, mapM_repeatedFields]
  have hcommons : parseRepeated 2 fields = some proto.logCommons := by
    rw [parseRepeated, List.filter_append, filter_repeatedFields, filter_repeatedFields,
      if_neg (by decide), if_pos rfl, List.nil_append, mapM_repeatedFields]
  have hread : readFields (messageCodec.serialize proto) = some fields := readFields_flatMap fields
  change (do
    let fields ← readFields (messageCodec.serialize proto)
    let contents ← parseRepeated 1 fields
    let commons ← parseRepeated 2 fields
    some (TrackMsgCacheProto.mk contents commons)) = some proto
  rw [hread]
  simp [hcontents, hcommons]

def configCodec : Codec TrackDiskCacheConfig where
  serialize strings :=
    (stringField 1 strings.topic ++ stringField 2 strings.endpoint
      ++ stringField 3 strings.accessKeyid ++ stringField 4 strings.accessKeySecret
      ++ stringField 5 strings.project ++ stringField 6 strings.logStore).flatMap Field.bytes
  parse bytes := (readFields bytes).map fun fields =>
    ⟨lastValue 1 fields, lastValue 2 fields, lastValue 3 fields, lastValue 4 fields,
      lastValue 5 fields, lastValue 6 fields⟩

theorem configCodec_lossless : configCodec.Lossless := by
  rintro ⟨topic, endpoint, accessKeyid, accessKeySecret, project, logStore⟩
  have hkeep : ∀ value : List UInt8, (if value = [] then [] else value) = value := by
    intro value
    split <;> simp_all
  simp only [configCodec, readFields_flatMap, Option.map_some, lastValue, List.foldl_append,
    foldl_stringField]
  simp [hkeep]

def logBytes (log : Log) : List UInt8 :=
  (if log.time = 0 then [] else varint 8 ++ varint log.time.toNat)
    ++ (repeatedFields 2 log.contents).flatMap Field.bytes

def groupBytes (group : LogGroup) : List UInt8 :=
  (group.logs.map (fun log => ((1, logBytes log) : Field)) ++ stringField 3 group.topic).flatMap
    Field.bytes

/-- The length bytes of a literal run, past the first fifteen. -/
def lz4Extra : Nat → Nat → List UInt8
  | 0, _ => []
  | fuel + 1, length =>
      if length < 255 then [UInt8.ofNat length] else 255 :: lz4Extra fuel (length - 255)

def lz4Literals (bytes : List UInt8) : List UInt8 :=
  if bytes.length ≤ lz4MaxInputSize then
    (if bytes.length < 15 then [UInt8.ofNat (bytes.length * 16)]
      else 240 :: lz4Extra bytes.length (bytes.length - 15)) ++ bytes
  else []

def wireFormat : Externals := ⟨messageCodec, configCodec, groupBytes, lz4Literals⟩

theorem wireFormat_lossless : wireFormat.Lossless := ⟨messageCodec_lossless, configCodec_lossless⟩

theorem wireFormat_compresses : wireFormat.Compresses := by
  refine ⟨?_, ?_⟩
  · intro group hlogs
    obtain ⟨log, logs, hcons⟩ := List.exists_cons_of_ne_nil hlogs
    have htag := varint_ne_nil (8 * 1 + 2)
    simp [wireFormat, groupBytes, hcons, Field.bytes, htag]
  · intro bytes _
    have hhead : (if bytes.length < 15 then [UInt8.ofNat (bytes.length * 16)]
        else 240 :: lz4Extra bytes.length (bytes.length - 15)) ≠ [] := by
      split <;> simp
    simp only [wireFormat, lz4Literals]
    split <;> simp_all

/-! ### Runs in which everything succeeds -/

def PushEnv.ideal : PushEnv :=
  ⟨true, some fun _ => 0, true, .full, true, .full, .full, .full, [], true⟩

theorem PushEnv.ideal_succeeds : PushEnv.ideal.Succeeds :=
  ⟨rfl, rfl, rfl, rfl, rfl, rfl, rfl, rfl, rfl⟩

def ResetEnv.ideal : ResetEnv :=
  ⟨true, true, true, some fun _ => 0, true, true, [], .full, true, .full, .full, true⟩

theorem ResetEnv.ideal_succeeds : ResetEnv.ideal.Succeeds :=
  ⟨rfl, rfl, rfl, rfl, rfl, rfl, rfl, rfl, rfl, rfl, rfl⟩

def InitEnv.ideal : InitEnv := ⟨true, true, some fun _ => 0, none, ResetEnv.ideal⟩

theorem InitEnv.ideal_succeeds : InitEnv.ideal.Succeeds :=
  ⟨rfl, rfl, rfl, rfl, ResetEnv.ideal_succeeds⟩

def plainConfig : TrackerConfig := TrackDiskCacheConfig.toConfig ⟨[116], [], [], [], [], []⟩

def plainMessage (value : Str) : TrackMessageImpl := ⟨some plainConfig, 7, ⟨[⟨[107], value⟩], []⟩⟩

theorem fieldBytes_length (number : Nat) (payload : List UInt8) :
    (Field.bytes (number, payload)).length
      = (varint (8 * number + 2)).length + (varint payload.length).length + payload.length := by
  rw [Field.bytes, List.length_append, List.length_append]

theorem plainMessage_size {value : Str} (h : value ≠ []) :
    (plainMessage value).getSerializeSize wireFormat
      = 1 + (varint (4 + (varint value.length).length + value.length)).length
        + (4 + (varint value.length).length + value.length) := by
  have hcontent : (contentBytes ⟨[107], value⟩).length
      = 4 + (varint value.length).length + value.length := by
    have hkey : (Field.bytes (1, [107])).length = 3 := by decide
    have htag : (varint (8 * 2 + 2)).length = 1 := by decide
    simp only [contentBytes, stringField, h, if_false, reduceCtorEq, List.singleton_append,
      List.flatMap_cons, List.flatMap_nil, List.append_nil, List.length_append, hkey,
      fieldBytes_length, htag]
    omega
  have htag : (varint (8 * 1 + 2)).length = 1 := by decide
  simp only [TrackMessageImpl.getSerializeSize, wireFormat, messageCodec, plainMessage,
    repeatedFields, List.map_cons, List.map_nil, List.append_nil, List.flatMap_cons,
    List.flatMap_nil, fieldBytes_length, hcontent, htag]

end TapSdk.Tracker
