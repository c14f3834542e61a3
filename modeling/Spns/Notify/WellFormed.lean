import Spns.Lib.Dictionary
import Spns.Notify.Core

/-!
# Well-formed notifications

A notification is a dictionary, so what a body says is a matter of the values
that it holds under the keys `@`, `h`, `n`, `t`, `z` and `~`.  The server reads
them one after the other and gives up at the first that is missing or wrong.
For a reader that behaves as `bt_dict_consumer` does, the two are the same.
-/

namespace Spns.Notify

open Spns
open Spns.Lib
open Spns.Lib.Bencode

variable {π : Type}

/-! ## What the reader reads -/

/-- The string of a value, when it fits the address space. -/
def stringOf : Item → Option StringView
  | .string text => if sized : text.length < 2 ^ 64 then some ⟨text, sized⟩ else none
  | _ => none

/-- The integer of a value, when it fits the type. -/
def integerOf (bits : Nat) : Item → Option (SignedInt bits)
  | .integer value =>
      if fits : -2 ^ (bits - 1) ≤ value ∧ value < 2 ^ (bits - 1) then some ⟨value, fits⟩ else none
  | _ => none

/-- The contents behind the positions of a `bt_dict_consumer`.  A position is
before an entry, or at a value that `skip_until` has found; every call throws
exactly when the contents have nothing to return for it. -/
structure DictConsumer.Reading (dict : DictConsumer π) where
  contents : Bytes → Option Contents
  entries : π → Contents
  value : π → Item × Contents
  start : ∀ body, (dict.start body).toOption.map entries = contents body
  skipUntil : ∀ position key,
    (dict.skipUntil position key).toOption.map
        (fun result => if result.1 then some (value result.2) else none) =
      (entries position).seek key
  consumeString : ∀ position,
    (dict.consumeString position).toOption.map (fun result => (result.1, entries result.2)) =
      (stringOf (value position).1).map fun text => (text, (value position).2)
  consumeInteger : ∀ position bits,
    (dict.consumeInteger position bits).toOption.map
        (fun result => (result.1, entries result.2)) =
      (integerOf bits (value position).1).map fun number => (number, (value position).2)
  maybeString : ∀ position key,
    (dict.maybeString position key).toOption.map Prod.fst =
      ((entries position).lookup key).bind fun
        | none => some none
        | some item => (stringOf item).map some

/-- The dictionary describes this notification: it holds an account, a hash, a
namespace, a timestamp and an expiry, and either a string or nothing under `~`.
The sizes and ranges are those of the fields of a notification. -/
structure Describes (contents : Contents) (notification : Notification) : Prop where
  account : contents.lookup [64] = some (some (.string notification.account.val))
  hash : contents.lookup [104] = some (some (.string notification.hash))
  ns : contents.lookup [110] = some (some (.integer notification.ns.val))
  timestampMs : contents.lookup [116] = some (some (.integer notification.timestampMs.val))
  expiryMs : contents.lookup [122] = some (some (.integer notification.expiryMs.val))
  data : contents.lookup [126] = some (notification.data.map fun data => .string data.val)

namespace DictConsumer.Reading

variable {dict : DictConsumer π}

/-- The body is the dictionary of this notification. -/
def WellFormed (reading : dict.Reading) (body : Bytes) (notification : Notification) : Prop :=
  ∃ contents, reading.contents body = some contents ∧ Describes contents notification

/-! ## Reading a field -/

/-- A position from which the keys after `last` are found as from the start. -/
def Past (reading : dict.Reading) (contents : Contents) (position : π) (last : Bytes) : Prop :=
  ∀ key, last < key → (reading.entries position).seek key = contents.seek key

/-- The value of a key that has to be there. -/
def field {α : Type} (contents : Contents) (key : Bytes) (convert : Item → Option α) : Option α :=
  (contents.lookup key).join.bind convert

/-- Requiring a key and consuming its value gives the field of the contents,
and the reader is past the key then. -/
theorem toOption_require_consume (reading : dict.Reading) {α β : Type} {contents : Contents}
    {position : π} {last key : Bytes} (past : reading.Past contents position last)
    (ascending : last < key) (missing : String) {consume : π → Except String (α × π)}
    {convert : Item → Option α}
    (consumes : ∀ position,
      (consume position).toOption.map (fun result => (result.1, reading.entries result.2)) =
        (convert (reading.value position).1).map fun value =>
          (value, (reading.value position).2))
    {next : α × π → Except String β} {after : α → Option β}
    (follows : ∀ value position, reading.Past contents position key →
      (next (value, position)).toOption = after value) :
    (dict.require position key missing >>= fun position => consume position >>= next).toOption =
      (field contents key convert).bind after := by
  have found := reading.skipUntil position key
  rw [past key ascending] at found
  rw [require, field, Contents.lookup]
  cases skipped : dict.skipUntil position key with
  | error text =>
      rw [skipped] at found
      rw [← found]
      rfl
  | ok result =>
      obtain ⟨present, at_⟩ := result
      rw [skipped] at found
      cases present with
      | false =>
          rw [← found]
          rfl
      | true =>
          have here : contents.seek key = some (some (reading.value at_)) := found.symm
          have value := consumes at_
          rw [here]
          change (consume at_ >>= next).toOption =
            (convert (reading.value at_).1).bind after
          cases consumed : consume at_ with
          | error text =>
              rw [consumed] at value
              rw [Option.map_eq_none_iff.mp value.symm]
              rfl
          | ok pair =>
              obtain ⟨got, behind⟩ := pair
              rw [consumed] at value
              obtain ⟨same, converted, pairs⟩ := Option.map_eq_some_iff.mp value.symm
              obtain ⟨rfl, rest⟩ := Prod.mk.inj pairs
              rw [converted]
              apply follows
              intro later larger
              rw [← rest]
              exact Contents.seek_of_seek here larger

/-- A field has the value that stands for it in the contents. -/
theorem field_eq_some_iff {α : Type} {contents : Contents} {key : Bytes}
    {convert : Item → Option α} {value : α} {item : Item}
    (converts : ∀ found, convert found = some value ↔ found = item) :
    field contents key convert = some value ↔ contents.lookup key = some (some item) := by
  rw [field, Option.bind_eq_some_iff]
  simp only [Option.join_eq_some_iff, converts, exists_eq_right]

end DictConsumer.Reading

theorem stringOf_eq_some_iff {text : StringView} (item : Item) :
    stringOf item = some text ↔ item = .string text.val := by
  cases item with
  | string bytes =>
      have sized := text.property
      simp only [stringOf, Item.string.injEq]
      constructor
      · intro read
        split_ifs at read
        cases read
        rfl
      · rintro rfl
        rw [dif_pos sized]
  | integer value => simp [stringOf]
  | other => simp [stringOf]

theorem integerOf_eq_some_iff {bits : Nat} {number : SignedInt bits} (item : Item) :
    integerOf bits item = some number ↔ item = .integer number.val := by
  cases item with
  | string bytes => simp [integerOf]
  | integer value =>
      have fits := number.property
      simp only [integerOf, Item.integer.injEq]
      constructor
      · intro read
        split_ifs at read
        cases read
        rfl
      · rintro rfl
        rw [dif_pos fits]
  | other => simp [integerOf]

/-! ## Reading a notification -/

open DictConsumer.Reading

/-- A notification with a hash of an admitted size. -/
def ofSized (account : AccountID) (hash : Bytes) (ns : SignedInt 16)
    (timestampMs expiryMs : SignedInt 64) (data : Option StringView)
    (sized : msgHashMinSize ≤ hash.length ∧ hash.length ≤ msgHashMaxSize) : Notification :=
  ⟨account, hash, ns, timestampMs, expiryMs, data, sized.1, sized.2⟩

/-- The notification that a dictionary describes. -/
def described (contents : Contents) : Option Notification :=
  (field contents [64] stringOf).bind fun accountStr =>
    (asFixed 33 accountStr.val).bind fun account =>
      (field contents [104] stringOf).bind fun hash =>
        if sized : msgHashMinSize ≤ hash.val.length ∧ hash.val.length ≤ msgHashMaxSize then
          (field contents [110] (integerOf 16)).bind fun ns =>
            (field contents [116] (integerOf 64)).bind fun timestampMs =>
              (field contents [122] (integerOf 64)).bind fun expiryMs =>
                ((contents.lookup [126]).bind fun
                  | none => some none
                  | some item => (stringOf item).map some).map fun data =>
                    ofSized account hash.val ns timestampMs expiryMs data sized
        else none

variable {dict : DictConsumer π}

/-- The server reads a body as the contents of its dictionary describe it. -/
theorem toOption_parseNotification (reading : dict.Reading) (body : Bytes) :
    (parseNotification dict body).toOption = (reading.contents body).bind described := by
  have started := reading.start body
  rw [parseNotification]
  cases begun : dict.start body with
  | error text =>
      rw [begun] at started
      rw [← started]
      rfl
  | ok begin =>
      rw [begun] at started
      rw [← started]
      have past : reading.Past (reading.entries begin) begin [] := fun _ _ => rfl
      refine reading.toOption_require_consume past (by decide) _ reading.consumeString ?_
      intro accountStr position past
      simp only
      cases asFixed 33 accountStr.val with
      | none => rfl
      | some account =>
          refine reading.toOption_require_consume past (by decide) _ reading.consumeString ?_
          intro hash position past
          simp only
          split
          · refine reading.toOption_require_consume past (by decide) _
              (fun position => reading.consumeInteger position 16) ?_
            intro ns position past
            refine reading.toOption_require_consume past (by decide) _
              (fun position => reading.consumeInteger position 64) ?_
            intro timestampMs position past
            refine reading.toOption_require_consume past (by decide) _
              (fun position => reading.consumeInteger position 64) ?_
            intro expiryMs position past
            have data := reading.maybeString position [126]
            have same : (reading.entries position).lookup [126] =
                (reading.entries begin).lookup [126] := by
              rw [Contents.lookup, past [126] (by decide), Contents.lookup]
            rw [same] at data
            simp only
            rw [← data]
            cases dict.maybeString position [126] with
            | error text => rfl
            | ok result => rfl
          · rfl

/-- The optional message data. -/
theorem optional_eq_some_iff {contents : Contents} {key : Bytes} {data : Option StringView} :
    ((contents.lookup key).bind fun
      | none => some none
      | some item => (stringOf item).map some) = some data ↔
      contents.lookup key = some (data.map fun text => .string text.val) := by
  rcases contents.lookup key with _ | _ | item
  · simp
  · cases data <;> simp
  · cases data with
    | none => simp
    | some text => simp [stringOf_eq_some_iff]

theorem described_eq_some_iff {contents : Contents} {notification : Notification} :
    described contents = some notification ↔ Describes contents notification := by
  constructor
  · intro given
    obtain ⟨accountStr, account, given⟩ := Option.bind_eq_some_iff.mp given
    obtain ⟨fixed, sized, given⟩ := Option.bind_eq_some_iff.mp given
    obtain ⟨hash, hashed, given⟩ := Option.bind_eq_some_iff.mp given
    split_ifs at given
    obtain ⟨ns, named, given⟩ := Option.bind_eq_some_iff.mp given
    obtain ⟨timestampMs, stamped, given⟩ := Option.bind_eq_some_iff.mp given
    obtain ⟨expiryMs, expires, given⟩ := Option.bind_eq_some_iff.mp given
    obtain ⟨data, holds, rfl⟩ := Option.map_eq_some_iff.mp given
    rw [asFixed] at sized
    split_ifs at sized
    cases sized
    exact
      { account := (field_eq_some_iff stringOf_eq_some_iff).mp account
        hash := (field_eq_some_iff stringOf_eq_some_iff).mp hashed
        ns := (field_eq_some_iff integerOf_eq_some_iff).mp named
        timestampMs := (field_eq_some_iff integerOf_eq_some_iff).mp stamped
        expiryMs := (field_eq_some_iff integerOf_eq_some_iff).mp expires
        data := optional_eq_some_iff.mp holds }
  · rintro ⟨account, hash, ns, timestampMs, expiryMs, data⟩
    have accountSize := notification.account.property
    have hashMax := notification.maxSize
    have accountView : field contents [64] stringOf =
        some ⟨notification.account.val, by omega⟩ :=
      (field_eq_some_iff stringOf_eq_some_iff).mpr account
    have hashView : field contents [104] stringOf =
        some ⟨notification.hash, by rw [msgHashMaxSize] at hashMax; omega⟩ :=
      (field_eq_some_iff stringOf_eq_some_iff).mpr hash
    rw [described, accountView, Option.bind_some, asFixed, dif_pos accountSize, Option.bind_some,
      hashView, Option.bind_some, dif_pos ⟨notification.minSize, hashMax⟩,
      (field_eq_some_iff integerOf_eq_some_iff).mpr ns, Option.bind_some,
      (field_eq_some_iff integerOf_eq_some_iff).mpr timestampMs, Option.bind_some,
      (field_eq_some_iff integerOf_eq_some_iff).mpr expiryMs, Option.bind_some,
      optional_eq_some_iff.mpr data]
    rfl

/-- A body is read as a notification exactly when it is well formed. -/
theorem parseNotification_eq_ok_iff (reading : dict.Reading) (body : Bytes)
    (notification : Notification) :
    parseNotification dict body = .ok notification ↔ reading.WellFormed body notification := by
  have read := toOption_parseNotification reading body
  have result : parseNotification dict body = .ok notification ↔
      (parseNotification dict body).toOption = some notification := by
    cases parseNotification dict body with
    | error text => simp [Except.toOption]
    | ok other => simp [Except.toOption]
  rw [result, read, Option.bind_eq_some_iff]
  simp only [described_eq_some_iff, DictConsumer.Reading.WellFormed]

/-! ## The sample reader -/

namespace Sample

theorem toOption_view (text : Bytes) : (view text).toOption = stringOf (.string text) := by
  rw [view, stringOf]
  split_ifs <;> rfl

theorem toOption_signed (bits : Nat) (value : Int) :
    (signed bits value).toOption = integerOf bits (.integer value) := by
  rw [signed, integerOf]
  split_ifs <;> rfl

theorem stringOf_readItem {bytes : Bytes} (unread : readString bytes = none) :
    stringOf (readItem bytes) = none := by
  have not := readItem_ne_string unread
  cases item : readItem bytes with
  | string text => exact absurd item (not text)
  | integer value => rfl
  | other => rfl

theorem integerOf_readItem (bits : Nat) {bytes : Bytes} (unread : readInt bytes = none) :
    integerOf bits (readItem bytes) = none := by
  have not := readItem_ne_integer unread
  cases item : readItem bytes with
  | string text => rfl
  | integer value => exact absurd item (not value)
  | other => rfl

/-- The sample reader reads the contents that the bytes encode. -/
def reading : Sample.dict.Reading where
  contents := dictContents
  entries := Bencode.entries
  value position := (readItem position, entriesAfter position)
  start body := by
    unfold dictContents
    simp only [Sample.dict]
    split
    · rfl
    · rename_i noDict
      split
      · exact absurd rfl (noDict _)
      · rfl
  skipUntil position key := by
    rw [← skipUntil_eq_seek (Nat.lt_succ_self position.length)]
    simp only [Sample.dict]
    cases Bencode.skipUntil (position.length + 1) position key <;> rfl
  consumeString position := by
    simp only [Sample.dict]
    cases read : readString position with
    | none =>
        rw [stringOf_readItem read]
        rfl
    | some result =>
        obtain ⟨text, rest⟩ := result
        rw [readItem_of_readString read, entriesAfter_of_readString read, ← toOption_view]
        simp only
        cases view text <;> rfl
  consumeInteger position bits := by
    simp only [Sample.dict]
    cases read : readInt position with
    | none =>
        rw [integerOf_readItem bits read]
        rfl
    | some result =>
        obtain ⟨value, rest⟩ := result
        rw [readItem_of_readInt read, entriesAfter_of_readInt read, ← toOption_signed]
        simp only
        cases signed bits value <;> rfl
  maybeString position key := by
    rw [Contents.lookup, ← skipUntil_eq_seek (Nat.lt_succ_self position.length)]
    simp only [Sample.dict]
    rcases Bencode.skipUntil (position.length + 1) position key with _ | ⟨_ | _, rest⟩
    · rfl
    · rfl
    · simp only
      cases read : readString rest with
      | none =>
          simp only [Option.map_some, if_true, Option.bind_some]
          rw [stringOf_readItem read]
          rfl
      | some result =>
          obtain ⟨text, after⟩ := result
          simp only [Option.map_some, if_true, Option.bind_some]
          rw [readItem_of_readString read, ← toOption_view]
          cases view text <;> rfl

end Sample

end Spns.Notify
