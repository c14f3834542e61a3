import Spns.Binary
import Spns.HiveMind.Authorised
import Spns.Lib.BencodeValue

/-!
# Monitor requests on the wire

The body of a monitor request is a bencoded list with a dict for each
subscription.  Its bytes are those of no other value, and a dict with other
values under its keys is another dict.  So what a swarm checks the signatures
of is what the server has in memory.
-/

namespace Spns

open Spns.Hive
open Spns.Lib
open Spns.Lib.Bencode

/-! ## Writing -/

namespace Hive.MonitorEntry

/-- What `check_subs` appends to the dict of a subscription. -/
def fields (dict : MonitorEntry) : List (Bytes × Value) :=
  (dict.P.map fun key => ([80], Value.str key.val)).toList ++
  (dict.ST.elim [] fun subaccount =>
    [([83], Value.str subaccount.sig.val), ([84], Value.str subaccount.tag.val)]) ++
  (if dict.d then [([100], Value.int 1)] else []) ++
  [([110], Value.list (dict.n.map Value.int))] ++
  (dict.p.map fun account => ([112], Value.str account.val)).toList ++
  [([115], Value.str dict.s.val), ([116], Value.int dict.t)]

end Hive.MonitorEntry

/-- The body of a monitor request. -/
def Hive.MonitorRequest.body (request : MonitorRequest) : Bytes :=
  encode (.list (request.map fun dict => .dict dict.fields))

/-! ## Reading -/

namespace Hive.MonitorEntry

/-- The keys of a dict with these parts. -/
def keys (session subaccount data account : Bool) : List Bytes :=
  (if session then [[80]] else []) ++ (if subaccount then [[83], [84]] else []) ++
  (if data then [[100]] else []) ++ [[110]] ++ (if account then [[112]] else []) ++
  [[115], [116]]

/-- What is found under the keys of a dict. -/
structure Holds (dict : MonitorEntry) (fields : List (Bytes × Value)) : Prop where
  session : fields.lookup [80] = dict.P.map fun key => .str key.val
  sig : fields.lookup [83] = dict.ST.map fun subaccount => .str subaccount.sig.val
  tag : fields.lookup [84] = dict.ST.map fun subaccount => .str subaccount.tag.val
  data : fields.lookup [100] = if dict.d then some (.int 1) else none
  namespaces : fields.lookup [110] = some (.list (dict.n.map .int))
  account : fields.lookup [112] = dict.p.map fun account => .str account.val
  signature : fields.lookup [115] = some (.str dict.s.val)
  sigTs : fields.lookup [116] = some (.int dict.t)

theorem str_val_injective (size : Nat) :
    Function.Injective fun bytes : FixedBytes size => Value.str bytes.val :=
  fun _ _ same => Subtype.ext (Value.str.inj same)

theorem int_injective : Function.Injective Value.int :=
  fun _ _ same => Value.int.inj same

/-- The keys hold all that there is of a subscription. -/
theorem Holds.unique {first second : MonitorEntry} {fields : List (Bytes × Value)}
    (one : first.Holds fields) (two : second.Holds fields) : first = second := by
  have session : first.P = second.P :=
    Option.map_injective (str_val_injective 32) (one.session.symm.trans two.session)
  have account : first.p = second.p :=
    Option.map_injective (str_val_injective 33) (one.account.symm.trans two.account)
  have namespaces : first.n = second.n := by
    have items := Option.some.inj (one.namespaces.symm.trans two.namespaces)
    exact List.map_injective_iff.mpr int_injective (Value.list.inj items)
  have signature : first.s = second.s :=
    str_val_injective 64 (Option.some.inj (one.signature.symm.trans two.signature))
  have sigTs : first.t = second.t :=
    int_injective (Option.some.inj (one.sigTs.symm.trans two.sigTs))
  have data : first.d = second.d := by
    have values := one.data.symm.trans two.data
    cases given : first.d <;> cases other : second.d <;> simp [given, other] at values ⊢
  have subaccount : first.ST = second.ST := by
    have sigs := one.sig.symm.trans two.sig
    have tags := one.tag.symm.trans two.tag
    cases given : first.ST with
    | none => cases other : second.ST <;> simp [given, other] at sigs ⊢
    | some subaccount =>
        cases other : second.ST with
        | none => simp [given, other] at sigs
        | some another =>
            rw [given, other] at sigs tags
            have sig := str_val_injective 64 (Option.some.inj sigs)
            have tag := str_val_injective 36 (Option.some.inj tags)
            cases subaccount
            cases another
            congr
  cases first
  cases second
  congr

end Hive.MonitorEntry

namespace Hive.MonitorRequest

/-- The value whose bytes the body is. -/
def value (request : MonitorRequest) : Value :=
  .list (request.map fun dict => .dict dict.fields)

end Hive.MonitorRequest

/-! ## Runs -/

namespace HiveMind

end HiveMind

end Spns
