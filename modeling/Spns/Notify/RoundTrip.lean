import Spns.Notify.Routing

/-!
# Push messages fit and decode

Every message for a service that can register is written into the buffer that
was sized for it, and the notifier reads the same fields back: the service data
if the row has any, and the message data if the row wants it and there is any.
-/

namespace Spns.Notify

open Spns
open Spns.Lib
open Spns.Lib.Bencode
open Spns.Lib.Bencode.Producer
open Spns.Storage

namespace PushMessage

/-- The service data is in the message exactly when there is any. -/
theorem lookup_svcdata (message : PushMessage) :
    message.contents.lookup [33] = some (message.svcdata.map Item.string) := by
  unfold contents
  cases message.svcdata with
  | none => rfl
  | some text => rfl

/-- The message data is in the message exactly when there is any. -/
theorem lookup_data (message : PushMessage) :
    message.contents.lookup [126] = some (message.data.map Item.string) := by
  unfold contents
  cases message.svcdata <;> cases message.data <;> rfl

end PushMessage

/-- For every service name that can be registered, whatever the size of the
buffer before: the message is written, takes no more than `size_needed`, has
ascending keys and is read back as the fields that it was made of. -/
theorem push_message_fits_and_decodes (notification : Notification) (row : Row) (sized : Sized row)
    (named : row.device.service.length ≤ 32) (bufSize : Nat) :
    ∃ message,
      Producer.build (resizedBuffer bufSize notification row) (pushEntries notification row) =
          some message ∧
        message.length ≤ sizeNeeded notification row ∧
        ((pushEntries notification row).map Prod.fst).Pairwise (· < ·) ∧
        dictContents message = some (pushMessage notification row).contents ∧
        (pushMessage notification row).contents.lookup [33] =
          some (row.data.svcdata.map Item.string) ∧
        (pushMessage notification row).contents.lookup [126] =
          some (if row.data.wantData then notification.data.map fun data => .string data.val
            else none) := by
  obtain ⟨message, built⟩ :=
    Option.isSome_iff_exists.mp (build_pushEntries_isSome bufSize notification sized named)
  have written := eq_encodeDict_of_build built
  refine ⟨message, built, ?_, ?_, ?_, ?_, ?_⟩
  · rw [written, length_encodeDict]
    exact entriesSize_pushEntries_le notification sized named
  · rw [map_fst_pushEntries]
    exact pushKeys_ascending _ _
  · rw [written]
    exact PushMessage.dictContents_encode (pushMessage notification row)
  · exact PushMessage.lookup_svcdata (pushMessage notification row)
  · rw [PushMessage.lookup_data, pushMessage]
    split_ifs
    · rw [Option.map_map]
      rfl
    · rfl

/-- A message with the longest timestamps that the types allow. -/
def longestTimes : Notification :=
  { sampleNotification with
    timestampMs := ⟨-2 ^ 63, by decide⟩
    expiryMs := ⟨-2 ^ 63, by decide⟩ }

theorem longestTimes_fits :
    ∃ message,
      Producer.build (resizedBuffer 0 longestTimes Sample.row)
          (pushEntries longestTimes Sample.row) = some message ∧
        message.length ≤ sizeNeeded longestTimes Sample.row ∧
        dictContents message = some (pushMessage longestTimes Sample.row).contents := by
  have sized : Sized Sample.row := ⟨by decide, by simp [Sample.row]⟩
  obtain ⟨message, built, fits, -, decoded, -⟩ :=
    push_message_fits_and_decodes longestTimes Sample.row sized (by decide) 0
  exact ⟨message, built, fits, decoded⟩

end Spns.Notify
