import Spns.Notify.Core

/-!
# The size of the push message

`size_needed` counts a little more than the encoded message needs for the
strings and a little less for its delimiters and timestamps.  The two together
leave room for every message whose service name is at most 32 bytes long.
-/

namespace Spns.Notify

open Spns
open Spns.Lib.Bencode
open Spns.Lib.Bencode.Producer
open Spns.Storage

theorem length_encodeEntry_nil (value : Bytes) :
    (encodeEntry ([], value)).length = 2 + value.length := by
  have key : (encodeString []).length = 2 := by decide
  rw [encodeEntry, List.length_append, key]

theorem length_encodeEntry_singleton (key : UInt8) (value : Bytes) :
    (encodeEntry ([key], value)).length = 3 + value.length := by
  have digit : (decimalDigits 1).length = 1 := by decide
  simp only [encodeEntry, encodeString, List.length_append, List.length_cons, List.length_nil,
    digit, Nat.add_comm, Nat.add_left_comm]

theorem length_encodeString_le_of_sized {bytes : Bytes} (sized : bytes.length < 2 ^ 64) :
    (encodeString bytes).length ≤ 21 + bytes.length :=
  length_encodeString_le 20 (by decide) (by omega)

theorem length_encodeInt_le_of_signed (value : SignedInt 64) :
    (encodeInt value.val).length ≤ 22 := by
  apply length_encodeInt_le 19 (by decide)
  have bounds := value.property
  omega

theorem length_encodeInt_le_of_namespace (value : SignedInt 16) :
    (encodeInt value.val).length ≤ 8 := by
  apply length_encodeInt_le 5 (by decide)
  have bounds := value.property
  omega

/-- An optional entry takes at most what `size_needed` counts for it. -/
theorem entriesSize_optionalEntry_le (key : UInt8) {value : Option Bytes}
    (sized : ∀ bytes ∈ value, bytes.length < 2 ^ 64) :
    entriesSize (optionalEntry key value) ≤
      value.elim 0 fun bytes => 3 + 21 + bytes.length := by
  cases value with
  | none => exact Nat.le_refl 0
  | some bytes =>
      have encoded := length_encodeString_le_of_sized (sized bytes rfl)
      simp only [optionalEntry, entriesSize, Option.map_some, Option.toList_some, List.map_cons,
        List.map_nil, List.sum_singleton, length_encodeEntry_singleton, Option.elim_some]
      omega

theorem pushData_sized (notification : Notification) (row : Row) :
    ∀ bytes ∈ pushData notification row, bytes.length < 2 ^ 64 := by
  intro bytes present
  rw [pushData] at present
  split at present
  · obtain ⟨data, _, rfl⟩ := Option.map_eq_some_iff.mp present
    exact data.property
  · contradiction

theorem entriesSize_append (first second : List Entry) :
    entriesSize (first ++ second) = entriesSize first + entriesSize second := by
  simp [entriesSize]

/-- The entries of a message and the delimiters of the dictionary take at most
`size_needed` bytes: the allowance for the size of the hash makes up for the
delimiters and for timestamps of more than 13 digits. -/
theorem entriesSize_pushEntries_le (notification : Notification) {row : Row} (sized : Sized row)
    (named : row.device.service.length ≤ 32) :
    entriesSize (pushEntries notification row) + 2 ≤ sizeNeeded notification row := by
  have small : notification.hash.length ≤ 99 := notification.maxSize
  have service : (encodeString row.device.service).length ≤ 2 + 1 + row.device.service.length :=
    length_encodeString_le 2 (by decide) (by omega)
  have hash : (encodeString notification.hash).length ≤ 2 + 1 + notification.hash.length :=
    length_encodeString_le 2 (by decide) (by omega)
  have svcid := length_encodeString_le_of_sized sized.1
  have account : (encodeString notification.account.val).length ≤ 2 + 1 + 33 := by
    have encoded := length_encodeString_le 2 (by decide)
      (show notification.account.val.length < 10 ^ 2 by rw [notification.account.property]; decide)
    rwa [notification.account.property] at encoded
  have encKey : (encodeString row.data.encKey.val).length ≤ 2 + 1 + 32 := by
    have encoded := length_encodeString_le 2 (by decide)
      (show row.data.encKey.val.length < 10 ^ 2 by rw [row.data.encKey.property]; decide)
    rwa [row.data.encKey.property] at encoded
  have ns := length_encodeInt_le_of_namespace notification.ns
  have timestamp := length_encodeInt_le_of_signed notification.timestampMs
  have expiry := length_encodeInt_le_of_signed notification.expiryMs
  have svcdata := entriesSize_optionalEntry_le 33 sized.2
  have data := entriesSize_optionalEntry_le 126 (pushData_sized notification row)
  simp only [pushEntries, entriesSize_append, sizeNeeded]
  simp only [entriesSize, List.map_cons, List.map_nil, List.sum_cons, List.sum_nil,
    length_encodeEntry_nil, length_encodeEntry_singleton] at svcdata data ⊢
  omega

/-- The keys of the message, by whether it has service data and message data. -/
def pushKeys (svcdata data : Bool) : List Bytes :=
  [[]] ++ (if svcdata then [[33]] else []) ++
    [[35], [38], [64], [94], [110], [116], [122]] ++ (if data then [[126]] else [])

theorem map_fst_pushEntries (notification : Notification) (row : Row) :
    (pushEntries notification row).map Prod.fst =
      pushKeys row.data.svcdata.isSome (pushData notification row).isSome := by
  rw [pushEntries]
  cases row.data.svcdata <;> cases pushData notification row <;> rfl

theorem pushKeys_ascending (svcdata data : Bool) : (pushKeys svcdata data).Pairwise (· < ·) := by
  revert svcdata data
  decide

/-- Every message for a service that can register is built. -/
theorem build_pushEntries_isSome (bufSize : Nat) (notification : Notification) {row : Row}
    (sized : Sized row) (named : row.device.service.length ≤ 32) :
    (Producer.build (resizedBuffer bufSize notification row)
      (pushEntries notification row)).isSome := by
  apply build_isSome
  · rw [map_fst_pushEntries]
    exact pushKeys_ascending _ _
  · have fits := entriesSize_pushEntries_le notification sized named
    rw [resizedBuffer]
    split <;> omega

end Spns.Notify
