import NtpSuite.Core.Assoc

/-!
# The KoD Database

The list of servers that have told the client to go away. It is kept in the
order of the address texts, so that a second kiss from a server finds the
first.

The C string of a fixed array is modelled without its terminator, and so are
the four characters of a kiss code.

## Main definitions

* `strcmp`: The order of the database.
* `KodEntry`: `struct kod_entry`.
* `searchEntry`, `addEntry`: Look up and record.
-/

namespace NtpSuite

/-- `strcmp`: by the first character that differs, as an unsigned number. -/
def strcmp : CStr → CStr → Ordering
  | [], [] => .eq
  | [], _ :: _ => .lt
  | _ :: _, [] => .gt
  | a :: as, b :: bs =>
    if a.toNat < b.toNat then .lt
    else if b.toNat < a.toNat then .gt
    else strcmp as bs

/-- `struct kod_entry`. The kiss code is the reference identifier of the packet. -/
structure KodEntry where
  hostname : CStr
  timestamp : Nat
  type : BitVec 32
deriving DecidableEq, Repr

/-- The size of the array for the host name. -/
def KOD_HOSTNAME_SIZE : Nat := 255

/-- `search_entry`: the entries for a host; the source returns their number. -/
def searchEntry (db : List KodEntry) (hostname : CStr) : List KodEntry :=
  db.filter (fun k => strcmp k.hostname hostname == .eq)

/-- `add_entry`: insert in the order of the host names. An entry that is
    there already gets the new time and keeps its kiss code. -/
def addEntry (db : List KodEntry) (pke : KodEntry) : List KodEntry :=
  match db with
  | [] => [pke]
  | k :: ks =>
    match strcmp k.hostname pke.hostname with
    | .lt => k :: addEntry ks pke
    | .eq => { k with timestamp := pke.timestamp } :: ks
    | .gt => pke :: k :: ks

/-- The entry `add_entry` makes of a text; `strlcpy` cuts it to the array. -/
def mkEntry (hostname : CStr) (type : BitVec 32) (time : Nat) : KodEntry :=
  { hostname := hostname.take (KOD_HOSTNAME_SIZE - 1), timestamp := time, type := type }

end NtpSuite
