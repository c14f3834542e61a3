import Spns.Binary
import Spns.Lib.BencodeValue
import Spns.Lib.Json
import Spns.Notify.Routing

/-!
# Encrypted payloads

The notifiers send what they know about a message to the client in an
encrypted payload: a bencoded list of a JSON object and the message itself,
padded with zeros.  The client reads it without knowing any lengths, so the
encodings have to say where they end, whatever bytes the message holds.
-/

namespace Spns.Notifiers

open Spns
open Spns.Lib
open Spns.Notify

/-! ## Texts -/

/-- `encode()` of a Python string. -/
def encodeUtf8 (text : List Char) : Bytes :=
  text.flatMap String.utf8EncodeChar

/-- `decode()`, which raises an exception for bytes that are no UTF-8. -/
def decodeUtf8 (bytes : Bytes) : Option (List Char) :=
  (String.fromUTF8? bytes.toByteArray).map String.toList

theorem decodeUtf8_encodeUtf8 (text : List Char) : decodeUtf8 (encodeUtf8 text) = some text := by
  have valid : (encodeUtf8 text).toByteArray.IsValidUTF8 := ⟨text, rfl⟩
  have same : String.fromUTF8 (encodeUtf8 text).toByteArray valid = String.ofList text := rfl
  rw [decodeUtf8, String.fromUTF8?, dif_pos valid, same, Option.map_some, String.toList_ofList]

/-- The text of ASCII characters. -/
def asciiText (bytes : Bytes) : List Char :=
  bytes.map fun byte => Char.ofNat byte.toNat

/-! ## The metadata -/

/-- The values in the metadata of a message. -/
inductive Scalar where
  | str (text : List Char)
  | int (value : Int)
  | bool (value : Bool)

def Scalar.toJson : Scalar → Json.Value
  | .str text => .str text
  | .int value => .int value
  | .bool value => .bool value

/-- As `bt_serialize` takes them: a Python `bool` is an integer. -/
def Scalar.toBencode : Scalar → Bencode.Value
  | .str text => .str (encodeUtf8 text)
  | .int value => .int value
  | .bool value => .int (if value then 1 else 0)

/-- A Python dictionary with strings for keys, in the order of insertion. -/
abbrev Metadata := List (List Char × Scalar)

def Metadata.toJson (metadata : Metadata) : Json.Value :=
  .obj (metadata.map fun field => (field.1, field.2.toJson))

/-- Bencoded dictionaries have their keys in order. -/
def Metadata.toBencode (metadata : Metadata) : Bencode.Value :=
  .dict ((metadata.map fun field => (encodeUtf8 field.1, field.2.toBencode)).mergeSort
    fun first second => !decide (second.1 < first.1))

/-- The fields that every message has. -/
def baseMetadata (data : PushMessage) (hash : List Char) : Metadata :=
  [(['@'], .str (asciiText (toHex data.account.val))), (['#'], .str hash), (['n'], .int data.ns),
    (['t'], .int data.timestampMs), (['z'], .int data.expiryMs)]

/-- What is added for a body, and what is left of it. -/
def describeBody (maxMsgSize : Int) : Option Bytes → Metadata × Option Bytes
  | none => ([], none)
  | some [] => ([], some [])
  | some (first :: rest) =>
      if 0 ≤ maxMsgSize ∧ maxMsgSize < ((first :: rest).length : Int) then
        ([(['l'], .int (first :: rest).length), (['B'], .bool true)], none)
      else
        ([(['l'], .int (first :: rest).length)], some (first :: rest))

def metadata (data : PushMessage) (hash : List Char) (maxMsgSize : Int) : Metadata :=
  baseMetadata data hash ++ (describeBody maxMsgSize data.data).1

/-! ## The payload -/

def metadataJson (metadata : Metadata) : Bytes :=
  encodeUtf8 (Json.dumps .spaced metadata.toJson)

/-- The list that is serialized. -/
def payloadItems (metadata : Metadata) (body : Option Bytes) (brokenNobodyHack : Bool) :
    List Bencode.Value :=
  match body with
  | some (first :: rest) => [.str (metadataJson metadata), .str (first :: rest)]
  | _ => [if brokenNobodyHack then metadata.toBencode else .str (metadataJson metadata)]

/-- Zeros up to the next multiple of 256. -/
def pad (payload : Bytes) : Bytes :=
  let surplus := payload.length % 256
  if surplus ≠ 0 then payload ++ List.replicate (256 - surplus) 0 else payload

/-- The bytes that `encrypt_notify_payload` encrypts. -/
def notifyPlaintext (data : PushMessage) (maxMsgSize : Int) (brokenNobodyHack : Bool) :
    Option Bytes := do
  let hash ← decodeUtf8 data.hash
  let items := payloadItems (metadata data hash maxMsgSize)
    (describeBody maxMsgSize data.data).2 brokenNobodyHack
  return pad (Bencode.encode (.list items))

/-- XChaCha20-Poly1305, which appends a tag of 16 bytes. -/
structure Aead where
  encrypt : (message : Bytes) → (key : EncKey) → (nonce : FixedBytes 24) → Bytes
  length_encrypt : ∀ message key nonce, (encrypt message key nonce).length = message.length + 16

def encryptPayload (aead : Aead) (nonce : FixedBytes 24) (message : Bytes) (encKey : EncKey) : Bytes :=
  nonce.val ++ aead.encrypt message encKey nonce

def encryptNotifyPayload (aead : Aead) (nonce : FixedBytes 24) (data : PushMessage)
    (maxMsgSize : Int) (brokenNobodyHack : Bool) : Option Bytes :=
  (notifyPlaintext data maxMsgSize brokenNobodyHack).map fun plain =>
    encryptPayload aead nonce plain data.encKey

/-! ## What the client reads -/

/-- A padded list of a JSON object and perhaps a body. -/
structure Carries (plain : Bytes) (fields : List (List Char × Json.Value)) (body : Option Bytes) :
    Prop where
  positive : 0 < plain.length
  aligned : 256 ∣ plain.length
  /-- The list is the only one that the bytes start with, and the rest is zeros. -/
  list : ∃ json padding, padding < 256 ∧
    plain = Bencode.encode (.list (.str json :: (body.map Bencode.Value.str).toList)) ++
      List.replicate padding 0 ∧
    (∀ items rest, plain = Bencode.encode (.list items) ++ rest →
      items = .str json :: (body.map Bencode.Value.str).toList) ∧
    (decodeUtf8 json).bind Json.loads = some (.obj fields)

/-- The body may be as large as `max_msg_size` allows; a negative value is no
limit. -/
def Fits (maxMsgSize : Int) (content : Bytes) : Prop :=
  maxMsgSize < 0 ∨ (content.length : Int) ≤ maxMsgSize

/-- The fields and the body say what was sent. -/
structure Tells (data : PushMessage) (hash : List Char) (maxMsgSize : Int)
    (fields : List (List Char × Json.Value)) (body : Option Bytes) : Prop where
  /-- Readers need not agree on what a key means that occurs twice. -/
  distinct : (fields.map Prod.fst).Nodup
  account : fields.lookup ['@'] = some (.str (asciiText (toHex data.account.val)))
  hash : fields.lookup ['#'] = some (.str hash)
  ns : fields.lookup ['n'] = some (.int data.ns)
  timestampMs : fields.lookup ['t'] = some (.int data.timestampMs)
  expiryMs : fields.lookup ['z'] = some (.int data.expiryMs)
  length : ∀ content, data.data = some content → content ≠ [] →
    fields.lookup ['l'] = some (.int content.length)
  included : ∀ content, data.data = some content → content ≠ [] → Fits maxMsgSize content →
    body = some content ∧ fields.lookup ['B'] = none
  leftOut : ∀ content, data.data = some content → content ≠ [] → ¬Fits maxMsgSize content →
    body = none ∧ fields.lookup ['B'] = some (.bool true)
  noBody : data.data = none ∨ data.data = some [] →
    body = none ∧ fields.lookup ['l'] = none ∧ fields.lookup ['B'] = none

/-- Padding adds zeros to a multiple of 256. -/
theorem pad_eq (payload : Bytes) :
    ∃ padding < 256, pad payload = payload ++ List.replicate padding 0 ∧
      256 ∣ (pad payload).length := by
  simp only [pad]
  split_ifs with surplus
  · refine ⟨256 - payload.length % 256, by omega, rfl, ?_⟩
    rw [List.length_append, List.length_replicate]
    omega
  · exact ⟨0, by decide, (List.append_nil payload).symm, Nat.dvd_of_mod_eq_zero (not_not.mp surplus)⟩

/-- What is padded can be read again. -/
theorem carries_pad (metadata : Metadata) (body : Option Bytes) :
    Carries
      (pad (Bencode.encode (.list (.str (metadataJson metadata) :: (body.map Bencode.Value.str).toList))))
      (metadata.map fun field => (field.1, field.2.toJson)) body := by
  obtain ⟨padding, few, padded, aligned⟩ := pad_eq
    (Bencode.encode (.list (.str (metadataJson metadata) :: (body.map Bencode.Value.str).toList)))
  refine ⟨?_, aligned, metadataJson metadata, padding, few, padded, ?_, ?_⟩
  · rw [padded, Bencode.encode, List.cons_append]
    exact Nat.succ_pos _
  · intro items rest same
    rw [padded] at same
    obtain ⟨values, -⟩ := Bencode.encode_unique _ _ _ _ same
    exact (Bencode.Value.list.inj values).symm
  · rw [metadataJson, decodeUtf8_encodeUtf8, Option.bind_some, Json.loads_dumps]
    rfl

/-- The body that is sent: an empty one counts as none. -/
def sentBody (data : PushMessage) (maxMsgSize : Int) : Option Bytes :=
  (describeBody maxMsgSize data.data).2.filter fun body => body ≠ []

theorem payloadItems_eq (metadata : Metadata) (body : Option Bytes) :
    payloadItems metadata body false =
      .str (metadataJson metadata) ::
        ((body.filter fun body => body ≠ []).map Bencode.Value.str).toList := by
  match body with
  | none => rfl
  | some [] => rfl
  | some (first :: rest) => rfl

theorem fits_iff (maxMsgSize : Int) (content : Bytes) :
    Fits maxMsgSize content ↔ ¬(0 ≤ maxMsgSize ∧ maxMsgSize < (content.length : Int)) := by
  rw [Fits]
  omega

/-- The metadata and the body that is sent tell everything. -/
theorem tells (data : PushMessage) (hash : List Char) (maxMsgSize : Int) :
    Tells data hash maxMsgSize
      ((metadata data hash maxMsgSize).map fun field => (field.1, field.2.toJson))
      (sentBody data maxMsgSize) := by
  rw [metadata, sentBody]
  match isBody : data.data with
  | none =>
      constructor
      all_goals simp [baseMetadata, describeBody, Scalar.toJson, List.lookup_cons, isBody]
  | some [] =>
      constructor
      all_goals simp [baseMetadata, describeBody, Scalar.toJson, List.lookup_cons, isBody]
  | some (first :: rest) =>
      by_cases tooBig : 0 ≤ maxMsgSize ∧ maxMsgSize < ((first :: rest).length : Int)
      · have leftOut : describeBody maxMsgSize (some (first :: rest)) =
            ([(['l'], .int (first :: rest).length), (['B'], .bool true)], none) := if_pos tooBig
        have doesNotFit : ¬Fits maxMsgSize (first :: rest) :=
          fun fits => (fits_iff maxMsgSize _).mp fits tooBig
        rw [leftOut]
        constructor
        all_goals simp [baseMetadata, Scalar.toJson, List.lookup_cons, isBody, doesNotFit]
      · have included : describeBody maxMsgSize (some (first :: rest)) =
            ([(['l'], .int (first :: rest).length)], some (first :: rest)) := if_neg tooBig
        have fits : Fits maxMsgSize (first :: rest) := (fits_iff maxMsgSize _).mpr tooBig
        rw [included]
        constructor
        all_goals simp [baseMetadata, Scalar.toJson, List.lookup_cons, isBody, fits]

/-- Whatever the message: the payload carries the account, the hash, the
namespace and the times, and the body if it may and can. -/
theorem notifyPlaintext_decodes (data : PushMessage) (hash : List Char) (maxMsgSize : Int)
    (isUtf8 : data.hash = encodeUtf8 hash) :
    ∃ plain fields body, notifyPlaintext data maxMsgSize false = some plain ∧
      Carries plain fields body ∧ Tells data hash maxMsgSize fields body := by
  refine ⟨_, _, sentBody data maxMsgSize, ?_, carries_pad (metadata data hash maxMsgSize) _,
    tells data hash maxMsgSize⟩
  rw [notifyPlaintext, isUtf8, decodeUtf8_encodeUtf8, sentBody, ← payloadItems_eq]
  rfl

/-- A message with a body that looks like bencode and has a zero. -/
def sampleMessage : PushMessage :=
  { pushMessage sampleNotification Sample.row with data := some [101, 48, 0] }

theorem sampleMessage_decodes :
    sampleMessage.hash = encodeUtf8 (List.replicate 32 'b') ∧
      ∃ plain fields body, notifyPlaintext sampleMessage 2500 false = some plain ∧
        Carries plain fields body ∧
        Tells sampleMessage (List.replicate 32 'b') 2500 fields body := by
  have isUtf8 : sampleMessage.hash = encodeUtf8 (List.replicate 32 'b') := by decide
  exact ⟨isUtf8, notifyPlaintext_decodes sampleMessage _ 2500 isUtf8⟩

end Spns.Notifiers
