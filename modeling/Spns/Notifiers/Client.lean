import Spns.Notifiers.Limits
import Spns.Notify.Subscribed

/-!
# From the server to the phone

A push crosses two formats: the notifier takes a bencoded dictionary apart, and
packs what it finds for the push provider, encrypted for one client.  Here is
what the documentation tells clients to do with it.  Whatever the server sends,
the client with the key of the request reads back what the request asked for.
-/

namespace Spns.Notifiers

open Spns
open Spns.Lib
open Spns.Notify
open Spns.Storage

/-! ## The push message -/

/-- The values in a push message: texts, and integers of 64 bits. -/
def IsFlat : Bencode.Value → Prop
  | .str _ => True
  | .int value => -2 ^ 63 ≤ value ∧ value < 2 ^ 63
  | .list _ => False
  | .dict _ => False

/-- `oxenc.bt_deserialize`; `none` is an exception. -/
structure BtDeserialize where
  run : Bytes → Option Bencode.Value
  run_encode : ∀ fields : List (Bytes × Bencode.Value), (fields.map Prod.fst).Pairwise (· < ·) →
    (∀ field ∈ fields, IsFlat field.2) → run (Bencode.encode (.dict fields)) = some (.dict fields)

/-- The values of a dictionary, by the character of their keys. -/
abbrev Dict := List (Bytes × Bencode.Value)

def Dict.text (dict : Dict) (key : Bytes) : Option Bytes :=
  match dict.lookup key with
  | some (.str bytes) => some bytes
  | _ => none

def Dict.integer (dict : Dict) (key : Bytes) : Option Int :=
  match dict.lookup key with
  | some (.int value) => some value
  | _ => none

/-- What the notifiers take from a push message.  They have no use for the
service and its data. -/
def readPush (btDeserialize : BtDeserialize) (wire : Bytes) : Option PushMessage :=
  match btDeserialize.run wire with
  | some (.dict data) => do
      let encKey ← (Dict.text data [94]).bind (asFixed 32)
      let account ← (Dict.text data [64]).bind (asFixed 33)
      let hash ← Dict.text data [35]
      let ns ← Dict.integer data [110]
      let timestampMs ← Dict.integer data [116]
      let expiryMs ← Dict.integer data [122]
      let svcid ← Dict.text data [38]
      return {
        service := (Dict.text data []).getD []
        svcid := svcid
        svcdata := Dict.text data [33]
        encKey := encKey
        hash := hash
        account := account
        ns := ns
        timestampMs := timestampMs
        expiryMs := expiryMs
        data := Dict.text data [126] }
  | _ => none

/-- `push_notification` of the APNS notifier. -/
def apnsPush (btDeserialize : BtDeserialize) (aead : Aead) (nonce : FixedBytes 24) (wire : Bytes) :
    Option NotificationRequest :=
  (readPush btDeserialize wire).bind (apnsNotification aead nonce)

/-- `push_notification` of the Huawei notifier. -/
def huaweiPush (btDeserialize : BtDeserialize) (aead : Aead) (nonce : FixedBytes 24) (wire : Bytes) :
    Option Huawei.Message :=
  (readPush btDeserialize wire).bind (huaweiNotification aead nonce)

/-- A field that is only there with a value. -/
def optionalField (key : UInt8) (value : Option Bytes) : Dict :=
  (value.map fun text => ([key], Bencode.Value.str text)).toList

/-- The dictionary of a message. -/
def fieldsOf (message : PushMessage) : Dict :=
  [([], .str message.service)] ++ optionalField 33 message.svcdata ++
    [([35], .str message.hash), ([38], .str message.svcid), ([64], .str message.account.val),
      ([94], .str message.encKey.val), ([110], .int message.ns), ([116], .int message.timestampMs),
      ([122], .int message.expiryMs)] ++ optionalField 126 message.data

theorem map_fst_fieldsOf (message : PushMessage) :
    (fieldsOf message).map Prod.fst = pushKeys message.svcdata.isSome message.data.isSome := by
  rw [fieldsOf]
  cases message.svcdata <;> cases message.data <;> rfl

theorem encode_eq_encode_fieldsOf (message : PushMessage) :
    message.encode = Bencode.encode (.dict (fieldsOf message)) := by
  have entries : message.entries =
      (fieldsOf message).map fun field => (field.1, Bencode.encode field.2) := by
    rw [PushMessage.entries, fieldsOf]
    cases message.svcdata <;> cases message.data <;>
      simp only [optionalEntry, optionalField, Option.map_none, Option.map_some, Option.toList_none,
        Option.toList_some, List.map_append, List.map_cons, List.map_nil, Bencode.encode]
  rw [PushMessage.encode, entries, Bencode.encodeDict_map_encode]

/-- The integers of a message have 64 bits. -/
structure InRange (message : PushMessage) : Prop where
  ns : -2 ^ 63 ≤ message.ns ∧ message.ns < 2 ^ 63
  timestampMs : -2 ^ 63 ≤ message.timestampMs ∧ message.timestampMs < 2 ^ 63
  expiryMs : -2 ^ 63 ≤ message.expiryMs ∧ message.expiryMs < 2 ^ 63

theorem inRange_requestedMessage (notification : Notification) (request : AddRequest) :
    InRange (requestedMessage notification request) where
  ns := by
    have bounds := notification.ns.property
    change -2 ^ 63 ≤ notification.ns.val ∧ notification.ns.val < 2 ^ 63
    omega
  timestampMs := notification.timestampMs.property
  expiryMs := notification.expiryMs.property

theorem flat_optionalField (key : UInt8) (value : Option Bytes) :
    ∀ field ∈ optionalField key value, IsFlat field.2 := by
  intro field member
  obtain ⟨text, -, rfl⟩ := Option.map_eq_some_iff.mp (Option.mem_toList.mp member)
  trivial

theorem flat_fieldsOf {message : PushMessage} (inRange : InRange message) :
    ∀ field ∈ fieldsOf message, IsFlat field.2 := by
  rw [fieldsOf]
  simp only [List.forall_mem_append, List.forall_mem_cons, List.not_mem_nil, false_implies,
    implies_true, and_true]
  exact ⟨⟨⟨trivial, flat_optionalField 33 _⟩, trivial, trivial, trivial, trivial, inRange.ns,
    inRange.timestampMs, inRange.expiryMs⟩, flat_optionalField 126 _⟩

/-- The notifiers read what the server has written. -/
theorem readPush_encode (btDeserialize : BtDeserialize) {message : PushMessage}
    (inRange : InRange message) : readPush btDeserialize message.encode = some message := by
  have ascending : ((fieldsOf message).map Prod.fst).Pairwise (· < ·) := by
    rw [map_fst_fieldsOf]
    exact pushKeys_ascending _ _
  rw [readPush, encode_eq_encode_fieldsOf,
    btDeserialize.run_encode _ ascending (flat_fieldsOf inRange)]
  rcases message with ⟨service, svcid, svcdata, encKey, hash, account, ns, timestampMs, expiryMs, data⟩
  cases svcdata <;> cases data <;>
    simp [Dict.text, Dict.integer, fieldsOf, optionalField, List.lookup_cons, asFixed_val]

/-! ## The client -/

/-- The cipher of the notifiers and its inverse. -/
structure Cipher extends Aead where
  decrypt : (ciphertext : Bytes) → (key : EncKey) → (nonce : FixedBytes 24) → Option Bytes
  decrypt_encrypt : ∀ message key nonce, decrypt (encrypt message key nonce) key nonce = some message

/-- The nonce comes first. -/
def decryptPayload (cipher : Cipher) (encKey : EncKey) (payload : Bytes) : Option Bytes :=
  (asFixed 24 (payload.take 24)).bind (cipher.decrypt (payload.drop 24) encKey)

/-- The encrypted payload in the JSON text of a message. -/
def encPayload (text : List Char) : Option Bytes :=
  match Json.loads text with
  | some (.obj fields) =>
      match fields.lookup "enc_payload".toList with
      | some (.str digits) => fromBase64 (stripPadding (encodeUtf8 digits))
      | _ => none
  | _ => none

/-- The metadata of a message, by key. -/
abbrev Lookup := List Char → Option Scalar

def ofJson (fields : List (List Char × Json.Value)) : Lookup := fun key =>
  match fields.lookup key with
  | some (.str text) => some (.str text)
  | some (.int value) => some (.int value)
  | some (.bool value) => some (.bool value)
  | _ => none

/-- Some messages to Apple have a dictionary instead of JSON. -/
def ofDict (fields : Dict) : Lookup := fun key =>
  match fields.lookup (encodeUtf8 key) with
  | some (.str bytes) => (decodeUtf8 bytes).map Scalar.str
  | some (.int value) => some (.int value)
  | _ => none

def lookupText (lookup : Lookup) (key : List Char) : Option (List Char) :=
  match lookup key with
  | some (.str text) => some text
  | _ => none

def lookupInt (lookup : Lookup) (key : List Char) : Option Int :=
  match lookup key with
  | some (.int value) => some value
  | _ => none

/-- What a client learns about a message. -/
structure Details where
  account : Bytes
  hash : List Char
  ns : Int
  timestampMs : Int
  expiryMs : Int
  length : Option Int
  tooBig : Bool
  body : Option Bytes

def readDetails (lookup : Lookup) (body : Option Bytes) : Option Details := do
  let account ← (lookupText lookup ['@']).bind fun text => fromHex (encodeUtf8 text)
  let hash ← lookupText lookup ['#']
  let ns ← lookupInt lookup ['n']
  let timestampMs ← lookupInt lookup ['t']
  let expiryMs ← lookupInt lookup ['z']
  return ⟨account, hash, ns, timestampMs, expiryMs, lookupInt lookup ['l'],
    (lookup ['B']).isSome, body⟩

/-- The body, when there is one.  Further items have no meaning yet. -/
def readBody : List Bencode.Value → Option Bytes
  | .str content :: _ => some content
  | _ => none

def readList : List Bencode.Value → Option Details
  | .str json :: others =>
      match (decodeUtf8 json).bind Json.loads with
      | some (.obj fields) => readDetails (ofJson fields) (readBody others)
      | _ => none
  | .dict fields :: others => readDetails (ofDict fields) (readBody others)
  | _ => none

/-- The list at the start of a payload; what is behind it is padding. -/
def readPlaintext (plain : Bytes) : Option Details :=
  match Bencode.readValue (plain.length + 1) plain with
  | some (.list items, _) => readList items
  | _ => none

/-- What the client does with the text of a message. -/
def readMessage (cipher : Cipher) (encKey : EncKey) (text : List Char) : Option Details :=
  (encPayload text).bind fun payload => (decryptPayload cipher encKey payload).bind readPlaintext

/-- A body that is sent: it is not too big, and an empty one counts as none. -/
def sendable (body : Option Bytes) : Option Bytes :=
  body.filter fun content => content ≠ [] ∧ content.length ≤ 2500

/-- What there is to say about a message. -/
def detailsOf (message : PushMessage) (hash : List Char) : Details where
  account := message.account.val
  hash := hash
  ns := message.ns
  timestampMs := message.timestampMs
  expiryMs := message.expiryMs
  length := (message.data.filter fun content => content ≠ []).map fun content => content.length
  tooBig := message.data.any fun content => 2500 < content.length
  body := sendable message.data

/-! ## Unpacking -/

theorem utf8EncodeChar_ofNat : ∀ byte : UInt8, byte < 128 →
    String.utf8EncodeChar (Char.ofNat byte.toNat) = [byte] :=
  forall_byte (by decide +kernel)

theorem encodeUtf8_asciiText {bytes : Bytes} (ascii : ∀ byte ∈ bytes, byte < 128) :
    encodeUtf8 (asciiText bytes) = bytes := by
  induction bytes with
  | nil => rfl
  | cons byte bytes ih =>
      obtain ⟨first, others⟩ := List.forall_mem_cons.mp ascii
      have rest := ih others
      rw [encodeUtf8, asciiText] at rest ⊢
      rw [List.map_cons, List.flatMap_cons, utf8EncodeChar_ofNat byte first, rest,
        List.singleton_append]

theorem lt_of_isPlain {byte : UInt8} (plain : IsPlain byte) : byte < 128 :=
  Nat.lt_of_le_of_lt (UInt8.le_iff_toNat_le.mp plain.2.1) (by decide)

theorem fromHex_asciiText_toHex (bytes : Bytes) :
    fromHex (encodeUtf8 (asciiText (toHex bytes))) = some bytes := by
  have digits := ((exists_fromHex_iff (toHex bytes) bytes.length).mp
    ⟨bytes, fromHex_toHex bytes, rfl⟩).2
  rw [encodeUtf8_asciiText fun c member => lt_of_isPlain (isPlain_of_isHexDigit c (digits c member)),
    fromHex_toHex]

theorem fromBase64_asciiText_toPaddedBase64 (bytes : Bytes) :
    fromBase64 (stripPadding (encodeUtf8 (asciiText (toPaddedBase64 bytes)))) = some bytes := by
  have digits := (toBase64_digits bytes).2
  have ascii : ∀ c ∈ toPaddedBase64 bytes, c < 128 := by
    intro c member
    rcases List.mem_append.mp member with digit | padding
    · exact lt_of_isPlain (isPlain_of_isBase64Digit c (digits c digit))
    · rw [List.eq_of_mem_replicate padding]
      decide
  rw [encodeUtf8_asciiText ascii, toPaddedBase64, stripPadding_append digits, fromBase64_toBase64]

theorem encPayload_dumps (layout : Json.Layout) {fields : List (List Char × Json.Value)}
    {payload : Bytes}
    (found : fields.lookup "enc_payload".toList = some (.str (asciiText (toPaddedBase64 payload)))) :
    encPayload (Json.dumps layout (.obj fields)) = some payload := by
  rw [encPayload, Json.loads_dumps]
  simp only [found, fromBase64_asciiText_toPaddedBase64]

theorem encPayload_apnsMessage (payload : Bytes) :
    encPayload (Json.dumps .compact (apnsMessage payload)) = some payload :=
  encPayload_dumps .compact (by simp [List.lookup_cons])

theorem encPayload_huaweiData (payload : Bytes) : encPayload (huaweiData payload) = some payload :=
  encPayload_dumps .spaced (by simp)

theorem decryptPayload_encryptPayload (cipher : Cipher) (nonce : FixedBytes 24) (message : Bytes)
    (encKey : EncKey) :
    decryptPayload cipher encKey (encryptPayload cipher.toAead nonce message encKey) =
      some message := by
  have front : (nonce.val ++ cipher.encrypt message encKey nonce).take 24 = nonce.val :=
    List.take_left' nonce.property
  have back : (nonce.val ++ cipher.encrypt message encKey nonce).drop 24 =
      cipher.encrypt message encKey nonce := List.drop_left' nonce.property
  rw [decryptPayload, encryptPayload, front, back, asFixed_val, Option.bind_some,
    cipher.decrypt_encrypt]

/-! ## The metadata -/

theorem ofJson_map (metadata : Metadata) (key : List Char) :
    ofJson (metadata.map fun field => (field.1, field.2.toJson)) key = metadata.lookup key := by
  induction metadata with
  | nil => rfl
  | cons field metadata ih =>
      obtain ⟨first, value⟩ := field
      rw [ofJson] at ih ⊢
      rw [List.map_cons, List.lookup_cons, List.lookup_cons]
      cases key == first with
      | true => cases value <;> rfl
      | false => exact ih

/-- In a bencoded dictionary `True` is 1. -/
def Scalar.demote : Scalar → Scalar
  | .bool value => .int (if value then 1 else 0)
  | .str text => .str text
  | .int value => .int value

theorem encodeUtf8_injective : Function.Injective encodeUtf8 := by
  intro first second same
  apply Option.some.inj
  rw [← decodeUtf8_encodeUtf8, same, decodeUtf8_encodeUtf8]

theorem ofDict_map (metadata : Metadata) (key : List Char) :
    ofDict (metadata.map fun field => (encodeUtf8 field.1, field.2.toBencode)) key =
      (metadata.lookup key).map Scalar.demote := by
  induction metadata with
  | nil => rfl
  | cons field metadata ih =>
      obtain ⟨first, value⟩ := field
      have keys : (encodeUtf8 key == encodeUtf8 first) = (key == first) := by
        rw [Bool.eq_iff_iff, beq_iff_eq, beq_iff_eq]
        exact encodeUtf8_injective.eq_iff
      rw [ofDict] at ih ⊢
      rw [List.map_cons, List.lookup_cons, List.lookup_cons, keys]
      cases key == first with
      | true =>
          cases value with
          | str text => simp only [Scalar.toBencode, decodeUtf8_encodeUtf8, Option.map_some, Scalar.demote]
          | int value => rfl
          | bool value => rfl
      | false => exact ih

/-- The order in which the dictionary is written makes no difference. -/
theorem ofDict_toBencode {metadata : Metadata} (distinct : (metadata.map Prod.fst).Nodup)
    {fields : Dict} (written : metadata.toBencode = .dict fields) (key : List Char) :
    ofDict fields key = (metadata.lookup key).map Scalar.demote := by
  obtain rfl := Bencode.Value.dict.inj written
  have keys : ((metadata.map fun field => (encodeUtf8 field.1, field.2.toBencode)).map
      Prod.fst).Nodup := by
    have encoded := distinct.map encodeUtf8_injective
    rwa [List.map_map] at encoded ⊢
  rw [← ofDict_map, ofDict, ofDict, Bencode.lookup_of_perm (List.mergeSort_perm _ _).symm keys]

theorem nodup_keys_metadata (data : PushMessage) (hash : List Char) :
    ((metadata data hash maxMsgSize).map Prod.fst).Nodup := by
  have distinct := (tells data hash maxMsgSize).distinct
  rwa [List.map_map] at distinct

theorem describeBody_leftOut {content : Bytes} (large : 2500 < content.length) :
    describeBody maxMsgSize (some content) =
      ([(['l'], .int content.length), (['B'], .bool true)], none) := by
  obtain ⟨first, rest, rfl⟩ := List.exists_cons_of_length_pos (Nat.zero_lt_of_lt large)
  exact if_pos ⟨by decide, Int.ofNat_lt.mpr large⟩

/-- Both forms of the metadata say the same: only the flag differs. -/
theorem readDetails_eq (data : PushMessage) (hash : List Char) {lookup : Lookup}
    {form : Scalar → Scalar} (text : ∀ value, form (.str value) = .str value)
    (int : ∀ value, form (.int value) = .int value)
    (same : ∀ key, lookup key = ((metadata data hash maxMsgSize).lookup key).map form) :
    readDetails lookup (detailsOf data hash).body = some (detailsOf data hash) := by
  rw [metadata] at same
  rcases isBody : data.data with _ | _ | ⟨first, rest⟩
  · simp [readDetails, lookupText, lookupInt, same, baseMetadata, describeBody, isBody,
      List.lookup_cons, text, int, fromHex_asciiText_toHex, detailsOf]
  · simp [readDetails, lookupText, lookupInt, same, baseMetadata, describeBody, isBody,
      List.lookup_cons, text, int, fromHex_asciiText_toHex, detailsOf]
  · by_cases large : 2500 < (first :: rest).length
    · rw [isBody, describeBody_leftOut large] at same
      rw [List.length_cons] at large
      simp [readDetails, lookupText, lookupInt, same, baseMetadata, isBody, List.lookup_cons, text,
        int, fromHex_asciiText_toHex, detailsOf, large]
    · rw [isBody, describeBody_included (List.cons_ne_nil first rest) (Nat.not_lt.mp large)] at same
      rw [List.length_cons] at large
      simp [readDetails, lookupText, lookupInt, same, baseMetadata, isBody, List.lookup_cons, text,
        int, fromHex_asciiText_toHex, detailsOf, large]

theorem filter_describeBody (body : Option Bytes) :
    (describeBody maxMsgSize body).2.filter (fun content => content ≠ []) = sendable body := by
  match body with
  | none => rfl
  | some [] => rfl
  | some (first :: rest) =>
      rw [sendable, Option.filter_some]
      by_cases large : 2500 < (first :: rest).length
      · rw [describeBody_leftOut large, if_neg]
        · rfl
        · rw [decide_eq_true_eq]
          exact fun small => Nat.not_le.mpr large small.2
      · have small := Nat.not_lt.mp large
        rw [describeBody_included (List.cons_ne_nil first rest) small, if_pos]
        · rfl
        · exact decide_eq_true ⟨List.cons_ne_nil first rest, small⟩

/-- The list has the metadata in one of its forms, and perhaps the body. -/
theorem exists_payloadItems_eq (metadata : Metadata) (body : Option Bytes)
    (brokenNobodyHack : Bool) :
    ∃ first, payloadItems metadata body brokenNobodyHack =
        first :: ((body.filter fun content => content ≠ []).map Bencode.Value.str).toList ∧
      (first = .str (metadataJson metadata) ∨ first = metadata.toBencode) := by
  match body, brokenNobodyHack with
  | some (first :: rest), _ => exact ⟨_, rfl, Or.inl rfl⟩
  | none, false => exact ⟨_, rfl, Or.inl rfl⟩
  | none, true => exact ⟨_, rfl, Or.inr rfl⟩
  | some [], false => exact ⟨_, rfl, Or.inl rfl⟩
  | some [], true => exact ⟨_, rfl, Or.inr rfl⟩

theorem readBody_sendable (body : Option Bytes) :
    readBody ((body.map Bencode.Value.str).toList) = body := by
  cases body <;> rfl

theorem readList_text (data : PushMessage) (hash : List Char) :
    readList (.str (metadataJson (metadata data hash maxMsgSize)) ::
      ((sendable data.data).map Bencode.Value.str).toList) = some (detailsOf data hash) := by
  have read : (decodeUtf8 (metadataJson (metadata data hash maxMsgSize))).bind Json.loads =
      some (metadata data hash maxMsgSize).toJson := by
    rw [metadataJson, decodeUtf8_encodeUtf8, Option.bind_some, Json.loads_dumps]
  simp only [readList, read, Metadata.toJson, readBody_sendable]
  have values : ∀ key, ofJson ((metadata data hash maxMsgSize).map fun field =>
      (field.1, field.2.toJson)) key = ((metadata data hash maxMsgSize).lookup key).map id := by
    intro key
    rw [ofJson_map, Option.map_id_fun, id_eq]
  exact readDetails_eq data hash (fun _ => rfl) (fun _ => rfl) values

theorem readList_dictionary (data : PushMessage) (hash : List Char) :
    readList ((metadata data hash maxMsgSize).toBencode ::
      ((sendable data.data).map Bencode.Value.str).toList) = some (detailsOf data hash) := by
  rw [Metadata.toBencode, readList, readBody_sendable]
  exact readDetails_eq data hash (fun _ => rfl) (fun _ => rfl)
    (ofDict_toBencode (nodup_keys_metadata data hash) rfl)

/-- What is padded is read from its start. -/
theorem readPlaintext_pad (data : PushMessage) (hash : List Char) (brokenNobodyHack : Bool) :
    readPlaintext (pad (listPayload data hash brokenNobodyHack)) = some (detailsOf data hash) := by
  obtain ⟨first, items, form⟩ := exists_payloadItems_eq (metadata data hash maxMsgSize)
    (describeBody maxMsgSize data.data).2 brokenNobodyHack
  obtain ⟨padding, -, padded, -⟩ := pad_eq (listPayload data hash brokenNobodyHack)
  have enough : (listPayload data hash brokenNobodyHack).length <
      (pad (listPayload data hash brokenNobodyHack)).length + 1 := by
    rw [padded, List.length_append]
    omega
  have read := Bencode.readValue_encode _ _ (List.replicate padding 0) enough
  rw [← listPayload, ← padded, items, filter_describeBody] at read
  simp only [readPlaintext, read]
  rcases form with rfl | rfl
  · exact readList_text data hash
  · exact readList_dictionary data hash

/-- The client with the key reads what the notifiers have packed. -/
theorem readMessage_apns (cipher : Cipher) (nonce : FixedBytes 24) (data : PushMessage)
    (hash : List Char) :
    readMessage cipher data.encKey (Json.dumps .compact (apnsMessage (encryptPayload cipher.toAead
      nonce (pad (listPayload data hash true)) data.encKey))) = some (detailsOf data hash) := by
  rw [readMessage, encPayload_apnsMessage, Option.bind_some, decryptPayload_encryptPayload,
    Option.bind_some, readPlaintext_pad]

theorem readMessage_huawei (cipher : Cipher) (nonce : FixedBytes 24) (data : PushMessage)
    (hash : List Char) :
    readMessage cipher data.encKey (huaweiData (encryptPayload cipher.toAead nonce
      (pad (listPayload data hash false)) data.encKey)) = some (detailsOf data hash) := by
  rw [readMessage, encPayload_huaweiData, Option.bind_some, decryptPayload_encryptPayload,
    Option.bind_some, readPlaintext_pad]

/-! ## Whole runs -/

/-- Both notifiers can do with the bytes what the request has asked for: they
build a message for the device, and the client with the key of the request
reads the details in it.  Devices and hashes that are no texts get nothing. -/
structure Informs (btDeserialize : BtDeserialize) (cipher : Cipher) (notification : Notification)
    (request : AddRequest) (wire : Bytes) : Prop where
  apns : ∀ nonce token hash, request.serviceId = encodeUtf8 token →
    notification.hash = encodeUtf8 hash →
    ∃ message, apnsPush btDeserialize cipher.toAead nonce wire = some ⟨token, message⟩ ∧
      readMessage cipher request.encKey (Json.dumps .compact message) =
        some (detailsOf (requestedMessage notification request) hash)
  huawei : ∀ nonce token hash, request.serviceId = encodeUtf8 token →
    notification.hash = encodeUtf8 hash →
    ∃ data, huaweiPush btDeserialize cipher.toAead nonce wire = some ⟨data, token⟩ ∧
      readMessage cipher request.encKey data =
        some (detailsOf (requestedMessage notification request) hash)
  notText : decodeUtf8 request.serviceId = none ∨ decodeUtf8 notification.hash = none →
    ∀ nonce, apnsPush btDeserialize cipher.toAead nonce wire = none ∧
      huaweiPush btDeserialize cipher.toAead nonce wire = none

/-- Without a text for the hash or the token there is no message. -/
theorem not_built (aead : Aead) (nonce : FixedBytes 24) {data : PushMessage}
    (notText : decodeUtf8 data.svcid = none ∨ decodeUtf8 data.hash = none) :
    apnsNotification aead nonce data = none ∧ huaweiNotification aead nonce data = none := by
  rcases notText with noToken | noHash
  · rw [apnsNotification, huaweiNotification, noToken]
    exact ⟨Option.bind_fun_none _, Option.bind_fun_none _⟩
  · have noPayload : ∀ hack, encryptNotifyPayload aead nonce data maxMsgSize hack = none := by
      intro hack
      rw [encryptNotifyPayload, notifyPlaintext, noHash]
      rfl
    rw [apnsNotification, huaweiNotification, noPayload, noPayload]
    exact ⟨rfl, rfl⟩

theorem informs_requestedMessage (btDeserialize : BtDeserialize) (cipher : Cipher)
    (notification : Notification) (request : AddRequest) :
    Informs btDeserialize cipher notification request
      (requestedMessage notification request).encode := by
  have read := readPush_encode btDeserialize (inRange_requestedMessage notification request)
  constructor
  · intro nonce token hash isToken isHash
    have sameToken : (requestedMessage notification request).svcid = encodeUtf8 token := isToken
    have sameHash : (requestedMessage notification request).hash = encodeUtf8 hash := isHash
    refine ⟨_, ?_, readMessage_apns cipher nonce (requestedMessage notification request) hash⟩
    rw [apnsPush, read, Option.bind_some, apnsNotification_eq _ _ sameHash, sameToken,
      decodeUtf8_encodeUtf8]
    rfl
  · intro nonce token hash isToken isHash
    have sameToken : (requestedMessage notification request).svcid = encodeUtf8 token := isToken
    have sameHash : (requestedMessage notification request).hash = encodeUtf8 hash := isHash
    refine ⟨_, ?_, readMessage_huawei cipher nonce (requestedMessage notification request) hash⟩
    rw [huaweiPush, read, Option.bind_some, huaweiNotification_eq _ _ sameHash, sameToken,
      decodeUtf8_encodeUtf8]
    rfl
  · intro notText nonce
    rw [apnsPush, huaweiPush, read, Option.bind_some, Option.bind_some]
    exact not_built cipher.toAead nonce notText

/-- Whatever transactions run before and in between, one at a time: every push is
for a request that was in force when a notification for it was processed, and
informs the client of that request. -/
theorem pushes_inform_clients {π κ : Type} [DecidableEq κ] {env : Notify.Env π κ}
    (btDeserialize : BtDeserialize) (cipher : Cipher) (reading : env.dict.Reading) (now : Int)
    {events : List ServerEvent} {server : Server κ}
    (run : Run.exec (Server.step env) (Server.initial env now) events = some server) :
    ∃ sent : List Push, server.notify.pushes = sent.map Push.wire ∧
      ∀ push ∈ sent, ∃ before body later notification request,
        events = before ++ .message body :: later ∧ reading.WellFormed body notification ∧
          Current (calls before) request ∧ AsksFor notification request ∧
          Informs btDeserialize cipher notification request push.message.encode := by
  have replayed : ∀ device,
      (Server.initial env now).contents device = Replay.replayAt Call.op device none [] := fun _ => rfl
  obtain ⟨sent, added, justified⟩ :=
    Server.justified_of_exec reading (named_initial env now) replayed run
  refine ⟨sent, added, fun push member => ?_⟩
  obtain ⟨before, body, later, notification, request, split, read, current, asks, message⟩ :=
    justified push member
  refine ⟨before, body, later, notification, request, split, read, current, asks, ?_⟩
  rw [message]
  exact informs_requestedMessage btDeserialize cipher notification request

/-- Bencode as the library describes it. -/
def sampleBtDeserialize : BtDeserialize where
  run := Bencode.deserialize
  run_encode fields _ _ := Bencode.deserialize_encode (.dict fields)

theorem take_zeroTag (message : Bytes) :
    (message ++ List.replicate 16 0).take ((message ++ List.replicate 16 0).length - 16) =
      message := by
  rw [length_zeroTag, Nat.add_sub_cancel, List.take_left]

/-- A cipher that hides nothing. -/
def sampleCipher : Cipher where
  toAead := sampleAead
  decrypt ciphertext _ _ := some (ciphertext.take (ciphertext.length - 16))
  decrypt_encrypt message _ _ := congrArg some (take_zeroTag message)

theorem subscribedRun_informs :
    ∃ server, Run.exec (Server.step Notify.Sample.env) (Server.initial Notify.Sample.env 0)
        (subscribedRun ++ [.message Sample.body]) = some server ∧
      server.notify.pushes.length = 1 ∧
      ∃ sent : List Push, server.notify.pushes = sent.map Push.wire ∧
        ∀ push ∈ sent, ∃ before body later notification request,
          subscribedRun ++ [.message Sample.body] = before ++ .message body :: later ∧
            Sample.reading.WellFormed body notification ∧ Current (calls before) request ∧
            AsksFor notification request ∧
            Informs sampleBtDeserialize sampleCipher notification request push.message.encode := by
  obtain ⟨server, run, pushed⟩ : ∃ server,
      Run.exec (Server.step Notify.Sample.env) (Server.initial Notify.Sample.env 0)
          (subscribedRun ++ [.message Sample.body]) = some server ∧
        server.notify.pushes.length = 1 :=
    ⟨_, rfl, by decide +kernel⟩
  exact ⟨server, run, pushed,
    pushes_inform_clients sampleBtDeserialize sampleCipher Sample.reading 0 run⟩

end Spns.Notifiers
