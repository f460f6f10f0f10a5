import Mathlib.Algebra.Order.Ring.Int
import Mathlib.Data.List.Basic

/-!
# Locations of memory

A buffer has a location, such as `cpu:0`, or a list of NUMA nodes among which it is divided
evenly.  The text of such a list is read with the number readers of the C library, which
skip blanks, accept a sign and stop at the first character that is no digit.
-/

namespace Mooncake.Rdma

def kWildcardLocation : String := "*"

def kSegmentsLocationPrefix : String := "segments:"

structure SegmentsLocationInfo where
  pageSize : Nat
  numaNodes : List Int
  deriving DecidableEq, Repr

/-! ## Numbers -/

/-- `isspace`: the blank, and the characters from the tabulator to the carriage return. -/
def isSpace (char : Char) : Bool :=
  char.toNat = 32 || 9 ≤ char.toNat && char.toNat ≤ 13

def decimalValue (digits : List Char) : Nat :=
  digits.foldl (fun value digit => 10 * value + (digit.toNat - 48)) 0

/-- A sign in front of a number; a minus is reported. -/
def readSign : List Char → Bool × List Char
  | '-' :: rest => (true, rest)
  | '+' :: rest => (false, rest)
  | text => (false, text)

/-- What `strtol` and `strtoull` read, if there is a digit: the sign and the magnitude. -/
def readInteger (text : List Char) : Option (Bool × Nat) :=
  let (negative, rest) := readSign (text.dropWhile isSpace)
  let digits := rest.takeWhile Char.isDigit
  if digits.isEmpty then none else some (negative, decimalValue digits)

/-- `std::stoull`, which throws when there is no number or it is too large, and negates a
number with a minus as a machine word. -/
def stoull (text : List Char) : Option Nat :=
  match readInteger text with
  | none => none
  | some (negative, magnitude) =>
    if 2 ^ 64 ≤ magnitude then none
    else some (if negative then (2 ^ 64 - magnitude) % 2 ^ 64 else magnitude)

def stoi (text : List Char) : Option Int :=
  match readInteger text with
  | none => none
  | some (negative, magnitude) =>
    let value : Int := if negative then -magnitude else magnitude
    if -2 ^ 31 ≤ value ∧ value < 2 ^ 31 then some value else none

/-! ## Segments -/

/-- The page size, and the text behind its colon. -/
def readPage (name : String) : Option (Nat × List Char) :=
  if kSegmentsLocationPrefix.toList.isPrefixOf name.toList then
    let body := name.toList.drop kSegmentsLocationPrefix.length
    match body.dropWhile (· ≠ ':') with
    | [] => none
    | _ :: nodes => (stoull (body.takeWhile (· ≠ ':'))).map fun pageSize => (pageSize, nodes)
  else none

/-- The nodes that are stored before `std::stoi` throws, and whether it does not; empty places
between the commas are skipped. -/
def storeNodes : List (List Char) → Bool × List Int
  | [] => (true, [])
  | token :: rest =>
      if token.isEmpty then storeNodes rest
      else
        match stoi token with
        | none => (false, [])
        | some node => ((storeNodes rest).1, node :: (storeNodes rest).2)

/-- What the call answers, and what it leaves in the info of its caller. -/
def parseSegmentsLocation (name : String) (info : SegmentsLocationInfo) :
    Bool × SegmentsLocationInfo :=
  match readPage name with
  | none => (false, info)
  | some (pageSize, nodes) =>
      let stored := storeNodes (nodes.splitOn ',')
      (stored.1 && !stored.2.isEmpty, ⟨pageSize, stored.2⟩)

/-- The node of the part that holds the offset; the bytes after the last part belong to it. -/
def resolveSegmentsLocation (info : SegmentsLocationInfo) (bufferLength offset : Nat) : String :=
  let parts := info.numaNodes.length
  if parts = 0 then kWildcardLocation
  else
    let regionSize := bufferLength / parts
    if regionSize = 0 then kWildcardLocation
    else
      match info.numaNodes[min (offset / regionSize) (parts - 1)]? with
      | some node => "cpu:" ++ toString node
      | none => kWildcardLocation

end Mooncake.Rdma
