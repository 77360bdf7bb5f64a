import PointerLab.Tally
import PointerLab.TargetView
import Mathlib.Data.List.MinMax
import Mathlib.Data.Prod.Lex

set_option autoImplicit false

/- `engine_disasm/Disassembler.cpp`: listings of a buffer, and the instruction before an
address. -/
namespace PointerLab.Disassembler

open Domain TargetView

structure Instruction where
  address : Nat
  bytes : List UInt8
  text : Text
  branchTarget : Nat := 0
  valid : Bool := true
  deriving DecidableEq, Repr

/-- The decoder and the formatter: the length of the instruction at the start of some bytes, and
how it reads and where it goes to from an address. -/
structure Decoder where
  decode : List UInt8 → Option Nat
  text : List UInt8 → Nat → Text
  branchTarget : List UInt8 → Nat → Nat

/-- One round of the loop of `decodeBuffer`, over what is left of the buffer. A decoder that tells
more bytes than are left has the copy run over the buffer's end: the bytes there are zeros here. -/
def decodeOne (decoder : Decoder) (address : Nat) (bytes : List UInt8) : Instruction :=
  match decoder.decode bytes with
  | some length =>
      { address, bytes := (bytes ++ List.replicate length 0).take length,
        text := decoder.text bytes address, branchTarget := decoder.branchTarget bytes address }
  | none =>
      { address, bytes := bytes.take 1, text := "db 0x".toList ++ bytesToHex (bytes.take 1) false,
        valid := false }

/-- At most `count` instructions of a buffer that sits at an address. -/
def decodeBuffer (decoder : Decoder) : (count : Nat) → List UInt8 → (address : Nat) →
    List Instruction
  | 0, _, _ => []
  | _, [], _ => []
  | count + 1, byte :: rest, address =>
      let result := decodeOne decoder address (byte :: rest)
      result :: decodeBuffer decoder count ((byte :: rest).drop result.bytes.length)
        (address + result.bytes.length)

/-- The one read of `precedingInstruction`: the bytes before an address, as many as can be read
up to it. -/
def lookbackWindow (view : TargetView) (address : Nat) : (back : Nat) → List UInt8
  | 0 => []
  | back + 1 =>
      match view.readBytes (address - (back + 1)) (back + 1) with
      | .ok bytes =>
          if bytes.length = back + 1 then bytes else lookbackWindow view address back
      | .error _ => lookbackWindow view address back

/-- The instruction of a listing that ends at an address, if none before it is invalid or
straddles the address. -/
def landing (address : Nat) : List Instruction → Option Instruction
  | [] => none
  | instruction :: rest =>
      if !instruction.valid || instruction.bytes.isEmpty then none
      else
        let ends := instruction.address + instruction.bytes.length
        if ends = address then some instruction
        else if address < ends then none
        else landing address rest

/-- The start positions that have a vote, from the longest listing to the shortest. -/
def landings (decoder : Decoder) (window : List UInt8) (address : Nat) : List Instruction :=
  (List.range' 1 window.length).reverse.filterMap fun back =>
    landing address
      (decodeBuffer decoder back (window.drop (window.length - back)) (address - back))

def precedingInstruction (decoder : Bitness → Decoder) (view : TargetView) (address : Nat) :
    Option Instruction :=
  let maxLookback := 24
  if !view.attached || address ≤ maxLookback then none
  else
    let window := lookbackWindow view address maxLookback
    if window.isEmpty then none
    else
      let candidates :=
        Tally.tally Instruction.address (landings (decoder view.bitness) window address)
      -- More votes first, and the longer instruction among equals.
      (candidates.argmax fun candidate =>
        toLex (candidate.2, candidate.1.bytes.length)).map Prod.fst

end PointerLab.Disassembler
