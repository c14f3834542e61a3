import Spns.Notifiers.Huawei
import Spns.Notifiers.Payload

/-!
# Limits of the push providers

Apple refuses messages of 4096 bytes, Huawei of 4000.  The notifiers leave out
bodies of more than 2500 bytes to stay below that.  This does not account for
the JSON text of the message hash: a storage server may send hashes of up to 99
bytes, and JSON escapes can be six times as long.
-/

namespace Spns.Notifiers

open Spns
open Spns.Lib
open Spns.Notify
open Spns.Storage

/-- `MAX_MSG_SIZE` of both notifiers. -/
def maxMsgSize : Int := 2500

/-! ## The messages -/

/-- `BASE_APS` -/
def baseAps : Json.Value :=
  .obj [("alert".toList, .obj [("title".toList, .str "Session".toList),
      ("body".toList, .str "You've got a new message".toList)]),
    ("badge".toList, .int 1), ("sound".toList, .str "default".toList),
    ("mutable-content".toList, .int 1), ("category".toList, .str "SECRET".toList)]

/-- The message to Apple, with `SPNS_APNS_VERSION`. -/
def apnsMessage (encPayload : Bytes) : Json.Value :=
  .obj [("aps".toList, baseAps), ("spns".toList, .int 1),
    ("enc_payload".toList, .str (asciiText (toPaddedBase64 encPayload)))]

/-- The data of the message to Huawei, with `SPNS_HUAWEI_VERSION`. -/
def huaweiData (encPayload : Bytes) : List Char :=
  Json.dumps .spaced (.obj
    [("enc_payload".toList, .str (asciiText (toPaddedBase64 encPayload))),
      ("spns".toList, .str "1".toList)])

/-- A request to Apple. -/
structure NotificationRequest where
  deviceToken : List Char
  message : Json.Value

/-- `push_notification` of the APNS notifier, up to the request. -/
def apnsNotification (aead : Aead) (nonce : FixedBytes 24) (data : PushMessage) :
    Option NotificationRequest := do
  let encPayload ← encryptNotifyPayload aead nonce data maxMsgSize true
  let deviceToken ← decodeUtf8 data.svcid
  return ⟨deviceToken, apnsMessage encPayload⟩

/-- `push_notification` of the Huawei notifier, up to the queue. -/
def huaweiNotification (aead : Aead) (nonce : FixedBytes 24) (data : PushMessage) :
    Option Huawei.Message := do
  let encPayload ← encryptNotifyPayload aead nonce data maxMsgSize false
  let deviceToken ← decodeUtf8 data.svcid
  return ⟨huaweiData encPayload, deviceToken⟩

/-- What the notifiers build is shorter than the limits. -/
structure UnderLimits (aead : Aead) (data : PushMessage) : Prop where
  apns : ∀ nonce request, apnsNotification aead nonce data = some request →
    (encodeUtf8 (Json.dumps .compact request.message)).length < 4096
  huawei : ∀ nonce message, huaweiNotification aead nonce data = some message →
    (encodeUtf8 message.data).length < 4000

/-! ## Sizes of texts -/

theorem length_encodeUtf8 {text : List Char} (ascii : ∀ c ∈ text, Json.IsAscii c) :
    (encodeUtf8 text).length = text.length := by
  induction text with
  | nil => rfl
  | cons c text ih =>
      obtain ⟨first, others⟩ := List.forall_mem_cons.mp ascii
      have one : (String.utf8EncodeChar c).length = 1 := by
        rw [String.length_utf8EncodeChar, Char.utf8Size_eq_one_iff]
        exact Nat.le_of_lt_succ first
      have rest := ih others
      rw [encodeUtf8] at rest ⊢
      rw [List.flatMap_cons, List.length_append, one, rest, List.length_cons, Nat.add_comm]

theorem length_encodeUtf8_dumps (layout : Json.Layout) (value : Json.Value) :
    (encodeUtf8 (Json.dumps layout value)).length = (Json.dumps layout value).length :=
  length_encodeUtf8 (Json.isAscii_dumps layout value)

/-- Printable ASCII without the quote and the backslash. -/
def IsPlain (byte : UInt8) : Prop :=
  32 ≤ byte ∧ byte ≤ 126 ∧ byte ≠ 34 ∧ byte ≠ 92

instance (byte : UInt8) : Decidable (IsPlain byte) :=
  inferInstanceAs (Decidable (_ ∧ _))

theorem escape_plain : ∀ byte : UInt8, IsPlain byte →
    Json.escape (Char.ofNat byte.toNat) = [Char.ofNat byte.toNat] :=
  forall_byte (by decide +kernel)

/-- Plain texts need no escapes. -/
theorem length_quote_asciiText {bytes : Bytes} (plain : ∀ byte ∈ bytes, IsPlain byte) :
    (Json.quote (asciiText bytes)).length = bytes.length + 2 := by
  have escaped : Json.escapeText (asciiText bytes) = asciiText bytes := by
    induction bytes with
    | nil => rfl
    | cons byte bytes ih =>
        obtain ⟨first, others⟩ := List.forall_mem_cons.mp plain
        have rest := ih others
        rw [Json.escapeText, asciiText] at rest ⊢
        rw [List.map_cons, List.flatMap_cons, escape_plain byte first, rest, List.singleton_append]
  rw [Json.quote, escaped, List.length_cons, List.length_append, asciiText, List.length_map]
  rfl

theorem isPlain_of_isHexDigit : ∀ c : UInt8, IsHexDigit c → IsPlain c := by
  simp only [IsHexDigit]
  exact forall_byte (by decide +kernel)

theorem isPlain_of_isBase64Digit : ∀ c : UInt8, IsBase64Digit c → IsPlain c := by
  simp only [IsBase64Digit]
  exact forall_byte (by decide +kernel)

/-- The account in the metadata. -/
theorem length_quote_toHex (bytes : Bytes) :
    (Json.quote (asciiText (toHex bytes))).length = 2 * bytes.length + 2 := by
  have digits := ((exists_fromHex_iff (toHex bytes) bytes.length).mp
    ⟨bytes, fromHex_toHex bytes, rfl⟩).2
  rw [length_quote_asciiText fun c member => isPlain_of_isHexDigit c (digits c member), length_toHex]

/-- The encrypted payload in a message. -/
theorem length_quote_toPaddedBase64 (bytes : Bytes) :
    (Json.quote (asciiText (toPaddedBase64 bytes))).length = 4 * ((bytes.length + 2) / 3) + 2 := by
  have plain : ∀ c ∈ toPaddedBase64 bytes, IsPlain c := by
    intro c member
    rcases List.mem_append.mp member with digit | padding
    · exact isPlain_of_isBase64Digit c ((toBase64_digits bytes).2 c digit)
    · rw [List.eq_of_mem_replicate padding]
      decide
  rw [length_quote_asciiText plain, length_toPaddedBase64]

/-! ## Sizes of messages -/

theorem length_apnsMessage (encPayload : Bytes) :
    (encodeUtf8 (Json.dumps .compact (apnsMessage encPayload))).length =
      4 * ((encPayload.length + 2) / 3) + 165 := by
  have aps : (Json.dumps .compact baseAps).length = 131 := by decide +kernel
  have apsKey : (Json.quote "aps".toList).length = 5 := by decide
  have spnsKey : (Json.quote "spns".toList).length = 6 := by decide
  have spns : (Json.dumps .compact (.int 1)).length = 1 := by decide
  have encPayloadKey : (Json.quote "enc_payload".toList).length = 13 := by decide
  have text := length_quote_toPaddedBase64 encPayload
  rw [length_encodeUtf8_dumps, apnsMessage, Json.length_dumps_obj, Json.length_dumpsFields_cons,
    Json.length_dumpsFields_cons, Json.length_dumpsFields_cons, Json.dumpsFields, aps, apsKey,
    spnsKey, spns, encPayloadKey, Json.length_separator, Json.dumps, text]
  simp only [Json.Layout.compact, List.length_nil]
  omega

theorem length_huaweiData (encPayload : Bytes) :
    (encodeUtf8 (huaweiData encPayload)).length = 4 * ((encPayload.length + 2) / 3) + 32 := by
  have encPayloadKey : (Json.quote "enc_payload".toList).length = 13 := by decide
  have spnsKey : (Json.quote "spns".toList).length = 6 := by decide
  have spns : (Json.dumps .spaced (.str "1".toList)).length = 3 := by decide
  have text := length_quote_toPaddedBase64 encPayload
  rw [huaweiData, length_encodeUtf8_dumps, Json.length_dumps_obj, Json.length_dumpsFields_cons,
    Json.length_dumpsFields_cons, Json.dumpsFields, encPayloadKey, spnsKey, spns,
    Json.length_separator, Json.dumps, text]
  simp only [Json.Layout.spaced, List.length_nil]
  omega

/-! ## Sizes of payloads -/

/-- The bencoded list of a message, before it is padded. -/
def listPayload (data : PushMessage) (hash : List Char) (brokenNobodyHack : Bool) : Bytes :=
  Bencode.encode (.list (payloadItems (metadata data hash maxMsgSize)
    (describeBody maxMsgSize data.data).2 brokenNobodyHack))

theorem notifyPlaintext_eq {data : PushMessage} {hash : List Char}
    (isUtf8 : data.hash = encodeUtf8 hash) (brokenNobodyHack : Bool) :
    notifyPlaintext data maxMsgSize brokenNobodyHack =
      some (pad (listPayload data hash brokenNobodyHack)) := by
  rw [notifyPlaintext, isUtf8, decodeUtf8_encodeUtf8]
  rfl

theorem length_pad (payload : Bytes) :
    (pad payload).length = 256 * ((payload.length + 255) / 256) := by
  simp only [pad]
  split_ifs with surplus
  · rw [List.length_append, List.length_replicate]
    omega
  · omega

theorem length_encryptPayload (aead : Aead) (nonce : FixedBytes 24) (message : Bytes)
    (encKey : EncKey) : (encryptPayload aead nonce message encKey).length = message.length + 40 := by
  rw [encryptPayload, List.length_append, nonce.property, aead.length_encrypt]
  omega

/-- Twelve blocks are too many for both providers, and eleven are not. -/
theorem apnsMessage_lt_iff (aead : Aead) (nonce : FixedBytes 24) (payload : Bytes)
    (encKey : EncKey) :
    (encodeUtf8 (Json.dumps .compact
        (apnsMessage (encryptPayload aead nonce (pad payload) encKey)))).length < 4096 ↔
      payload.length ≤ 2816 := by
  rw [length_apnsMessage, length_encryptPayload, length_pad]
  omega

theorem huaweiData_lt_iff (aead : Aead) (nonce : FixedBytes 24) (payload : Bytes)
    (encKey : EncKey) :
    (encodeUtf8 (huaweiData (encryptPayload aead nonce (pad payload) encKey))).length < 4000 ↔
      payload.length ≤ 2816 := by
  rw [length_huaweiData, length_encryptPayload, length_pad]
  omega

/-- The escaped hash in the metadata. -/
def escapedSize (hash : List Char) : Nat :=
  (Json.escapeText hash).length

/-- The decimal text of a number in the metadata. -/
def textSize (value : Int) : Nat :=
  (Json.intChars value).length

/-- The metadata without what is said about the body. -/
theorem length_metadataJson (data : PushMessage) (hash : List Char) (extra : Metadata) :
    (metadataJson (baseMetadata data hash ++ extra)).length =
      105 + escapedSize hash + textSize data.ns + textSize data.timestampMs +
        textSize data.expiryMs + (Json.dumpsFields .spaced (Json.Layout.spaced.separator ',')
          (extra.map fun field => (field.1, field.2.toJson))).length := by
  obtain ⟨key₁, key₂, key₃, key₄, key₅⟩ : (Json.quote ['@']).length = 3 ∧
      (Json.quote ['#']).length = 3 ∧ (Json.quote ['n']).length = 3 ∧
      (Json.quote ['t']).length = 3 ∧ (Json.quote ['z']).length = 3 := by
    decide
  have account := length_quote_toHex data.account.val
  have hashText := Json.length_quote hash
  rw [data.account.property] at account
  rw [metadataJson, length_encodeUtf8_dumps, Metadata.toJson, Json.length_dumps_obj,
    List.map_append]
  simp only [baseMetadata, List.map_cons, List.map_nil, List.cons_append, List.nil_append,
    Scalar.toJson, Json.length_dumpsFields_cons, Json.length_separator, Json.dumps, account,
    key₁, key₂, key₃, key₄, key₅, hashText, escapedSize, textSize, List.length_nil]
  have spaces : Json.Layout.spaced.spaces = 1 := rfl
  omega

/-- The sizes that the types of a push message allow. -/
structure Bounded (data : PushMessage) (hash : List Char) : Prop where
  hash : (encodeUtf8 hash).length ≤ 99
  ns : data.ns.natAbs < 10 ^ 5
  timestampMs : data.timestampMs.natAbs < 10 ^ 19
  expiryMs : data.expiryMs.natAbs < 10 ^ 19
  data : ∀ content, data.data = some content → content.length < 10 ^ 20

/-- Room for the escapes: what is left of eleven blocks by a body that is sent. -/
def LeavesRoom (data : PushMessage) (hash : List Char) : Prop :=
  ∀ content, data.data = some content → content ≠ [] → content.length ≤ 2500 →
    119 + escapedSize hash + textSize data.ns + textSize data.timestampMs +
      textSize data.expiryMs + 2 * textSize content.length + content.length ≤ 2816

theorem length_escape_le (c : Char) : (Json.escape c).length ≤ 6 * c.utf8Size := by
  have positive := c.utf8Size_pos
  rw [Json.escape]
  split_ifs with isQuote isBackslash isNewline isReturn isTab isFeed isBackspace plain small
  case neg =>
    have four : c.utf8Size = 4 := Char.utf8Size_eq_four_iff.mpr
      (Nat.lt_of_not_le fun low => small (Nat.lt_succ_of_le low))
    rw [four, List.length_append]
    simp only [Json.unicodeEscape, Json.unitDigits, List.length_cons, List.length_nil]
    omega
  all_goals
    simp only [Json.unicodeEscape, Json.unitDigits, List.length_cons, List.length_nil]
    omega

/-- Escapes are at most six times as long as what they stand for. -/
theorem escapedSize_le (hash : List Char) : escapedSize hash ≤ 6 * (encodeUtf8 hash).length := by
  induction hash with
  | nil => exact Nat.le_refl 0
  | cons c hash ih =>
      have first := length_escape_le c
      rw [← String.length_utf8EncodeChar] at first
      rw [escapedSize, encodeUtf8, Json.escapeText] at ih ⊢
      rw [List.flatMap_cons, List.flatMap_cons, List.length_append, List.length_append]
      omega

theorem textSize_le {value : Int} (digits : Nat) (positive : 0 < digits)
    (small : value.natAbs < 10 ^ digits) : textSize value ≤ digits + 1 := by
  have counted := (Nat.length_toDigits_le_iff (by decide) positive).mpr small
  rw [textSize, Json.intChars]
  split_ifs
  · rw [List.length_cons]
    omega
  · omega

theorem textSize_natCast (value : Nat) :
    textSize value = (Bencode.decimalDigits value).length := by
  rw [textSize, Json.intChars, if_neg (by omega), Int.natAbs_natCast, Bencode.decimalDigits,
    List.length_map]

/-- The text of what the metadata says about the body. -/
def bodyTextSize (extra : Metadata) : Nat :=
  (Json.dumpsFields .spaced (Json.Layout.spaced.separator ',')
    (extra.map fun field => (field.1, field.2.toJson))).length

theorem bodyTextSize_cons (size : Nat) (rest : Metadata) :
    bodyTextSize ((['l'], .int size) :: rest) = 7 + textSize size + bodyTextSize rest := by
  have key : (Json.quote ['l']).length = 3 := by decide
  have spaces : Json.Layout.spaced.spaces = 1 := rfl
  rw [bodyTextSize, List.map_cons, Json.length_dumpsFields_cons, Json.length_separator, key,
    Scalar.toJson, Json.dumps, bodyTextSize, textSize]
  omega

theorem bodyTextSize_leftOut : bodyTextSize [(['B'], .bool true)] = 11 := by
  decide

/-- What is said about the body is short. -/
theorem bodyTextSize_le {data : PushMessage} {hash : List Char} (bounded : Bounded data hash) :
    bodyTextSize (describeBody maxMsgSize data.data).1 ≤ 39 := by
  match isBody : data.data with
  | none => decide
  | some [] => decide
  | some (first :: rest) =>
      have digits : textSize (first :: rest).length ≤ 21 :=
        textSize_le 20 (by decide) (bounded.data _ isBody)
      rw [describeBody]
      split_ifs
      · rw [bodyTextSize_cons, bodyTextSize_leftOut]
        omega
      · rw [bodyTextSize_cons, bodyTextSize]
        simp only [List.map_nil, Json.dumpsFields, List.length_nil]
        omega

/-- The metadata has a size of three digits. -/
theorem length_metadataJson_bounds {data : PushMessage} {hash : List Char}
    (bounded : Bounded data hash) :
    105 ≤ (metadataJson (metadata data hash maxMsgSize)).length ∧
      (metadataJson (metadata data hash maxMsgSize)).length < 1000 := by
  have length := length_metadataJson data hash (describeBody maxMsgSize data.data).1
  have body := bodyTextSize_le bounded
  have escaped := escapedSize_le hash
  have hashSize := bounded.hash
  have ns := textSize_le 5 (by decide) bounded.ns
  have timestampMs := textSize_le 19 (by decide) bounded.timestampMs
  have expiryMs := textSize_le 19 (by decide) bounded.expiryMs
  rw [bodyTextSize] at body
  rw [metadata, length]
  omega

theorem length_encodeString_metadataJson {data : PushMessage} {hash : List Char}
    (bounded : Bounded data hash) :
    (Bencode.encodeString (metadataJson (metadata data hash maxMsgSize))).length =
      (metadataJson (metadata data hash maxMsgSize)).length + 4 := by
  obtain ⟨low, high⟩ := length_metadataJson_bounds bounded
  have digits := Bencode.length_decimalDigits 2 (by omega) high
  rw [Bencode.encodeString, List.length_append, List.length_cons, digits]
  omega

theorem describeBody_included {content : Bytes} (some : content ≠ [])
    (small : content.length ≤ 2500) :
    describeBody maxMsgSize (.some content) = ([(['l'], .int content.length)], .some content) := by
  obtain ⟨first, rest, rfl⟩ := List.exists_cons_of_ne_nil some
  rw [describeBody, if_neg]
  rw [maxMsgSize]
  omega

theorem payloadItems_included (metadata : Metadata) {content : Bytes} (some : content ≠ [])
    (brokenNobodyHack : Bool) :
    payloadItems metadata (.some content) brokenNobodyHack =
      [.str (metadataJson metadata), .str content] := by
  obtain ⟨first, rest, rfl⟩ := List.exists_cons_of_ne_nil some
  rfl

/-- A payload with a body. -/
theorem length_included {data : PushMessage} {hash : List Char} (bounded : Bounded data hash)
    {content : Bytes} (isBody : data.data = some content) (some : content ≠ [])
    (small : content.length ≤ 2500) (brokenNobodyHack : Bool) :
    (listPayload data hash brokenNobodyHack).length =
      119 + escapedSize hash + textSize data.ns + textSize data.timestampMs +
        textSize data.expiryMs + 2 * textSize content.length + content.length := by
  have included : describeBody maxMsgSize data.data =
      ([(['l'], .int content.length)], .some content) := by
    rw [isBody]
    exact describeBody_included some small
  have body : bodyTextSize (describeBody maxMsgSize data.data).1 = 7 + textSize content.length := by
    rw [included]
    exact bodyTextSize_cons _ []
  have length := length_metadataJson data hash (describeBody maxMsgSize data.data).1
  rw [← bodyTextSize, body, ← metadata] at length
  have second : (Bencode.encodeString content).length =
      textSize content.length + 1 + content.length := by
    rw [Bencode.encodeString, List.length_append, List.length_cons, textSize_natCast]
    omega
  rw [listPayload, included, payloadItems_included _ some, Bencode.encode, Bencode.encodeItems,
    Bencode.encodeItems, Bencode.encodeItems, Bencode.encode, Bencode.encode, List.length_cons,
    List.length_append, List.length_append, length_encodeString_metadataJson bounded, length, second,
    List.length_singleton]
  omega

/-- The metadata alone, as a text. -/
theorem length_text {data : PushMessage} {hash : List Char} (bounded : Bounded data hash) :
    (Bencode.encode (.list [.str (metadataJson (metadata data hash maxMsgSize))])).length ≤ 2816 := by
  have bounds := length_metadataJson_bounds bounded
  rw [Bencode.encode, Bencode.encodeItems, Bencode.encodeItems, Bencode.encode, List.length_cons,
    List.length_append, length_encodeString_metadataJson bounded, List.length_singleton]
  omega

theorem length_encodeUtf8_le (text : List Char) : (encodeUtf8 text).length ≤ 4 * text.length := by
  induction text with
  | nil => exact Nat.le_refl 0
  | cons c text ih =>
      have first := c.utf8Size_le_four
      rw [encodeUtf8] at ih ⊢
      rw [List.flatMap_cons, List.length_append, String.length_utf8EncodeChar, List.length_cons]
      omega

/-- A field of the metadata in a dictionary. -/
theorem length_encodeFields_letter {c : Char}
    (letter : (Bencode.encodeString (encodeUtf8 [c])).length = 3) (value : Scalar)
    (rest : List (Bytes × Bencode.Value)) :
    (Bencode.encodeFields ((encodeUtf8 [c], value.toBencode) :: rest)).length =
      3 + (Bencode.encode value.toBencode).length + (Bencode.encodeFields rest).length := by
  rw [Bencode.encodeFields, List.length_append, List.length_append, letter]
  omega

/-- What a dictionary says about the body. -/
theorem length_bodyFields_le {data : PushMessage} {hash : List Char} (bounded : Bounded data hash) :
    (Bencode.encodeFields ((describeBody maxMsgSize data.data).1.map fun field =>
      (encodeUtf8 field.1, field.2.toBencode))).length ≤ 33 := by
  match isBody : data.data with
  | none => decide
  | some [] => decide
  | some (first :: rest) =>
      have digits : (Bencode.encodeInt (first :: rest).length).length ≤ 23 :=
        Bencode.length_encodeInt_le 20 (by decide) (bounded.data _ isBody)
      have leftOut : (Bencode.encodeFields [(encodeUtf8 ['B'], (Scalar.bool true).toBencode)]).length =
          7 := by decide
      rw [describeBody]
      split_ifs
      · rw [List.map_cons, length_encodeFields_letter (by decide), List.map_cons, List.map_nil,
          leftOut, Scalar.toBencode, Bencode.encode]
        omega
      · rw [List.map_cons, length_encodeFields_letter (by decide), List.map_nil,
          Bencode.encodeFields, Scalar.toBencode, Bencode.encode, List.length_singleton]
        omega

/-- The metadata alone, as a dictionary. -/
theorem length_dictionary {data : PushMessage} {hash : List Char} (bounded : Bounded data hash) :
    (Bencode.encode (.list [(metadata data hash maxMsgSize).toBencode])).length ≤ 2816 := by
  have sorted := Bencode.length_encodeFields_of_perm (List.mergeSort_perm
    ((metadata data hash maxMsgSize).map fun field => (encodeUtf8 field.1, field.2.toBencode))
    fun first second => !decide (second.1 < first.1))
  have account : (Bencode.encode
      (Scalar.str (asciiText (toHex data.account.val))).toBencode).length ≤ 268 := by
    have text := length_encodeUtf8_le (asciiText (toHex data.account.val))
    rw [asciiText, List.length_map, length_toHex, data.account.property] at text
    have encoded := Bencode.length_encodeString_le 3 (by decide)
      (Nat.lt_of_le_of_lt text (by decide))
    exact encoded.trans (by omega)
  have hashText : (Bencode.encode (Scalar.str hash).toBencode).length ≤ 102 := by
    have encoded := Bencode.length_encodeString_le 2 (by decide)
      (Nat.lt_of_le_of_lt bounded.hash (by decide))
    exact encoded.trans (Nat.add_le_add_left bounded.hash 3)
  have ns : (Bencode.encode (Scalar.int data.ns).toBencode).length ≤ 8 :=
    Bencode.length_encodeInt_le 5 (by decide) bounded.ns
  have timestampMs : (Bencode.encode (Scalar.int data.timestampMs).toBencode).length ≤ 22 :=
    Bencode.length_encodeInt_le 19 (by decide) bounded.timestampMs
  have expiryMs : (Bencode.encode (Scalar.int data.expiryMs).toBencode).length ≤ 22 :=
    Bencode.length_encodeInt_le 19 (by decide) bounded.expiryMs
  have body := length_bodyFields_le bounded
  rw [Bencode.encode, Bencode.encodeItems, Bencode.encodeItems, Metadata.toBencode, Bencode.encode,
    List.length_cons, List.length_append, List.length_cons, sorted, metadata, baseMetadata,
    List.map_append]
  simp only [List.map_cons, List.map_nil, List.cons_append, List.nil_append]
  rw [length_encodeFields_letter (by decide), length_encodeFields_letter (by decide),
    length_encodeFields_letter (by decide), length_encodeFields_letter (by decide),
    length_encodeFields_letter (by decide), List.length_singleton]
  omega

/-! ## The limits -/

/-- A body that is not sent leaves a payload without one. -/
theorem listPayload_of_not_included {data : PushMessage} {hash : List Char}
    (absent : ∀ content, data.data = some content → content ≠ [] → 2500 < content.length)
    (brokenNobodyHack : Bool) :
    listPayload data hash brokenNobodyHack =
      Bencode.encode (.list [if brokenNobodyHack then (metadata data hash maxMsgSize).toBencode
        else .str (metadataJson (metadata data hash maxMsgSize))]) := by
  rw [listPayload]
  match isBody : data.data with
  | none => rfl
  | some [] => rfl
  | some (first :: rest) =>
      have large := absent (first :: rest) isBody (List.cons_ne_nil first rest)
      rw [describeBody, if_pos]
      · rfl
      · rw [maxMsgSize]
        omega

/-- Eleven blocks are enough exactly when there is room for the escapes. -/
theorem listPayload_le_iff {data : PushMessage} {hash : List Char} (bounded : Bounded data hash)
    (brokenNobodyHack : Bool) :
    (listPayload data hash brokenNobodyHack).length ≤ 2816 ↔ LeavesRoom data hash := by
  by_cases included : ∃ content, data.data = some content ∧ content ≠ [] ∧ content.length ≤ 2500
  · obtain ⟨content, isBody, some, small⟩ := included
    rw [length_included bounded isBody some small, LeavesRoom]
    constructor
    · intro fits other isOther _ _
      obtain rfl : content = other := Option.some.inj (isBody.symm.trans isOther)
      exact fits
    · intro room
      exact room content isBody some small
  · have absent : ∀ content, data.data = some content → content ≠ [] → 2500 < content.length := by
      intro content isBody some
      by_contra small
      exact included ⟨content, isBody, some, Nat.le_of_not_lt small⟩
    have room : LeavesRoom data hash := by
      intro content isBody some small
      exact absurd small (Nat.not_le.mpr (absent content isBody some))
    rw [listPayload_of_not_included absent]
    refine iff_of_true ?_ room
    cases brokenNobodyHack with
    | false => exact length_text bounded
    | true => exact length_dictionary bounded

theorem apnsNotification_eq (aead : Aead) (nonce : FixedBytes 24) {data : PushMessage}
    {hash : List Char} (isUtf8 : data.hash = encodeUtf8 hash) :
    apnsNotification aead nonce data = (decodeUtf8 data.svcid).map fun deviceToken =>
      ⟨deviceToken, apnsMessage
        (encryptPayload aead nonce (pad (listPayload data hash true)) data.encKey)⟩ := by
  rw [apnsNotification, encryptNotifyPayload, notifyPlaintext_eq isUtf8]
  cases decodeUtf8 data.svcid with
  | none => rfl
  | some deviceToken => rfl

theorem huaweiNotification_eq (aead : Aead) (nonce : FixedBytes 24) {data : PushMessage}
    {hash : List Char} (isUtf8 : data.hash = encodeUtf8 hash) :
    huaweiNotification aead nonce data = (decodeUtf8 data.svcid).map fun deviceToken =>
      ⟨huaweiData (encryptPayload aead nonce (pad (listPayload data hash false)) data.encKey),
        deviceToken⟩ := by
  rw [huaweiNotification, encryptNotifyPayload, notifyPlaintext_eq isUtf8]
  cases decodeUtf8 data.svcid with
  | none => rfl
  | some deviceToken => rfl

/-- Both messages are below their limits exactly when there is room for the
escapes, or when the token of the device is no text and no message is built. -/
theorem underLimits_iff_of_bounded (aead : Aead) {data : PushMessage} {hash : List Char}
    (isUtf8 : data.hash = encodeUtf8 hash) (bounded : Bounded data hash) :
    UnderLimits aead data ↔ decodeUtf8 data.svcid = none ∨ LeavesRoom data hash := by
  have apns := fun nonce => apnsNotification_eq aead nonce isUtf8
  have huawei := fun nonce => huaweiNotification_eq aead nonce isUtf8
  constructor
  · intro under
    cases token : decodeUtf8 data.svcid with
    | none => exact Or.inl rfl
    | some deviceToken =>
        have built := apns (FixedBytes.replicate 24 0)
        rw [token, Option.map_some] at built
        have short := (apnsMessage_lt_iff aead _ _ data.encKey).mp (under.apns _ _ built)
        exact Or.inr ((listPayload_le_iff bounded true).mp short)
  · rintro (noToken | room)
    · refine ⟨fun nonce request built => ?_, fun nonce message built => ?_⟩
      · rw [apns nonce, noToken] at built
        cases built
      · rw [huawei nonce, noToken] at built
        cases built
    · refine ⟨fun nonce request built => ?_, fun nonce message built => ?_⟩
      · rw [apns nonce] at built
        obtain ⟨deviceToken, -, rfl⟩ := Option.map_eq_some_iff.mp built
        exact (apnsMessage_lt_iff aead nonce _ data.encKey).mpr
          ((listPayload_le_iff bounded true).mpr room)
      · rw [huawei nonce] at built
        obtain ⟨deviceToken, -, rfl⟩ := Option.map_eq_some_iff.mp built
        exact (huaweiData_lt_iff aead nonce _ data.encKey).mpr
          ((listPayload_le_iff bounded false).mpr room)

/-- Every push message of `process_notifications` is bounded. -/
theorem bounded_pushMessage (notification : Notification) (row : Row) {hash : List Char}
    (isUtf8 : notification.hash = encodeUtf8 hash) : Bounded (pushMessage notification row) hash where
  hash := by
    rw [← isUtf8]
    exact notification.maxSize
  ns := by
    have bounds := notification.ns.property
    change notification.ns.val.natAbs < 10 ^ 5
    omega
  timestampMs := by
    have bounds := notification.timestampMs.property
    change notification.timestampMs.val.natAbs < 10 ^ 19
    omega
  expiryMs := by
    have bounds := notification.expiryMs.property
    change notification.expiryMs.val.natAbs < 10 ^ 19
    omega
  data content isBody := by
    simp only [pushMessage] at isBody
    split_ifs at isBody
    obtain ⟨view, -, rfl⟩ := Option.map_eq_some_iff.mp isBody
    exact Nat.lt_trans view.property (by decide)

/-- For every notification and every subscription: the messages are below the
limits exactly when there is room for the escapes of the hash. -/
theorem push_messages_under_limits_iff (aead : Aead) (notification : Notification) (row : Row)
    (hash : List Char) (isUtf8 : notification.hash = encodeUtf8 hash) :
    UnderLimits aead (pushMessage notification row) ↔
      decodeUtf8 row.device.svcid = none ∨ LeavesRoom (pushMessage notification row) hash :=
  underLimits_iff_of_bounded aead isUtf8 (bounded_pushMessage notification row isUtf8)

/-! ## Two messages -/

theorem length_zeroTag (message : Bytes) :
    (message ++ List.replicate 16 0).length = message.length + 16 := by
  rw [List.length_append, List.length_replicate]

/-- A cipher with the right lengths. -/
def sampleAead : Aead where
  encrypt message _ _ := message ++ List.replicate 16 0
  length_encrypt message _ _ := length_zeroTag message

theorem largestBody_lt : (List.replicate 2500 0 : Bytes).length < 2 ^ 64 := by
  rw [List.length_replicate]
  decide

/-- The largest body that is not left out. -/
def largestBody : StringView :=
  ⟨List.replicate 2500 0, largestBody_lt⟩

/-- A hash of printable characters. -/
def plainNotification : Notification :=
  { sampleNotification with data := some largestBody }

theorem controlHash_min : msgHashMinSize ≤ (List.replicate 99 1 : Bytes).length := by decide

theorem controlHash_max : (List.replicate 99 1 : Bytes).length ≤ msgHashMaxSize := by decide

/-- A hash of control characters, which are escaped one by one. -/
def controlNotification : Notification :=
  { plainNotification with
    hash := List.replicate 99 1
    minSize := controlHash_min
    maxSize := controlHash_max }

theorem plainNotification_under_limits :
    plainNotification.hash = encodeUtf8 (List.replicate 32 'b') ∧
      UnderLimits sampleAead (pushMessage plainNotification Sample.row) := by
  have isUtf8 : plainNotification.hash = encodeUtf8 (List.replicate 32 'b') := by decide
  refine ⟨isUtf8, (push_messages_under_limits_iff sampleAead plainNotification Sample.row _
    isUtf8).mpr (Or.inr ?_)⟩
  intro content isBody _ _
  have body : List.replicate 2500 0 = content := Option.some.inj isBody
  rw [← body, List.length_replicate]
  decide

theorem controlNotification_over_limits :
    controlNotification.hash = encodeUtf8 (List.replicate 99 '\x01') ∧
      ¬UnderLimits sampleAead (pushMessage controlNotification Sample.row) := by
  have isUtf8 : controlNotification.hash = encodeUtf8 (List.replicate 99 '\x01') := by decide
  have token : decodeUtf8 Sample.row.device.svcid = some (List.replicate 32 'a') :=
    decodeUtf8_encodeUtf8 (List.replicate 32 'a')
  refine ⟨isUtf8, ?_⟩
  rw [underLimits_iff_of_bounded sampleAead isUtf8
    (bounded_pushMessage controlNotification Sample.row isUtf8)]
  rintro (noToken | room)
  · have wrong := token.symm.trans noToken
    cases wrong
  · have sent := room (List.replicate 2500 0) rfl (List.cons_ne_nil _ _)
      (Nat.le_of_eq List.length_replicate)
    have escaped : escapedSize (List.replicate 99 '\x01') = 594 := by decide +kernel
    rw [List.length_replicate, escaped] at sent
    omega

end Spns.Notifiers
