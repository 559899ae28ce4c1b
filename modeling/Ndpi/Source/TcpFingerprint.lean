import Ndpi.Lib.Scan
import Ndpi.Source.Tls.Blocks

/-!
# The options of a TCP fingerprint

`ndpi_main.c` 8140-8282, in `ndpi_init_packet`: the options of a SYN are printed into a
buffer of 128 bytes, in the native format as hexadecimal text of kinds and data, in the
MuonFP format as the list of the kinds. The index of the loop and the lengths of the
texts have 8 bits. An option of length zero leaves the index where it is, and a large
one takes it back behind the wrap.
-/
namespace Ndpi.Source.TcpFingerprint
open Lib Source.Serialization Source.Tls.Blocks

/-- `cfg.tcp_fingerprint_format`. -/
inductive Format where
  | native
  | muonfp
  deriving DecidableEq, Repr

/-- `sizeof(fingerprint)` and `sizeof(options_fp)`. -/
def textSize : Nat := 128

/-- A buffer with the length of the text in it. -/
structure Text where
  buffer : Memory
  len : Nat
  deriving DecidableEq, Repr

/-- `snprintf` behind the text, into what is left of the buffer. If that would be all of
it, the text is not counted. -/
def Text.print (t : Text) (text : Bytes) : Turn Text Text :=
  let buffer := snprintfAt t.buffer t.len (textSize - t.len) text
  if t.len + text.length = textSize then .leave ⟨buffer, t.len⟩
  else .stay ⟨buffer, (t.len + text.length) % 256⟩

/-- The variables of the loop. -/
structure State where
  i : Nat
  optionsFp : Text
  fingerprint : Text
  tcpMss : Nat
  tcpWscale : Nat
  deriving DecidableEq, Repr

def roundedTtl (ttl : UInt8) : Nat :=
  if ttl ≤ 32 then 32 else if ttl ≤ 64 then 64 else if ttl ≤ 128 then 128
  else if ttl ≤ 192 then 192 else 255

/-- What is printed before the options. -/
def prologue (format : Format) (flags tcpWin : UInt16) (ttl : UInt8) : Bytes :=
  match format with
  | .native => decimal flags.toNat ++ 0x5F :: (decimal (roundedTtl ttl) ++
      0x5F :: (decimal tcpWin.toNat ++ [0x5F]))
  | .muonfp => decimal tcpWin.toNat ++ [0x3A]

/-- The state before the loop, with whatever bytes the buffers hold. -/
def start (format : Format) (flags tcpWin : UInt16) (ttl : UInt8) (fingerprint optionsFp : Bytes) :
    State :=
  let text := prologue format flags tcpWin ttl
  ⟨0, ⟨⟨optionsFp, []⟩, 0⟩, ⟨snprintfAt ⟨fingerprint, []⟩ 0 textSize text, text.length % 256⟩, 0, 0⟩

variable (options : Bytes) (format : Format)

def printKind (kind : UInt8) (s : State) : Turn State State :=
  match format with
  | .native =>
    match s.optionsFp.print (hexByte kind) with
    | .stay t => .stay { s with optionsFp := t }
    | .leave t => .leave { s with optionsFp := t }
  | .muonfp =>
    if s.fingerprint.len ≥ textSize then .leave s
    else
      match s.fingerprint.print ((if s.i > 0 then [0x2D] else []) ++ decimal kind.toNat) with
      | .stay t => .stay { s with fingerprint := t }
      | .leave t => .leave { s with fingerprint := t }

/-- The number in the data of an option, of one to four bytes. -/
def optionValue (j optLen : Nat) : Scan Nat :=
  if optLen = 1 then do
    let b ← Scan.byte options j
    pure b.toNat
  else if optLen = 2 then Scan.be16 options j
  else if optLen = 3 then Scan.be24 options j
  else if optLen = 4 then Scan.be32 options j
  else pure 0

/-- The maximum segment size and the window scale. -/
def keepValue (kind : UInt8) (j optLen : Nat) (s : State) : Scan State :=
  if (kind = 2 ∨ kind = 3) ∧ j + optLen - 1 < options.length then do
    let val ← optionValue options j optLen
    if kind = 2 then pure { s with tcpMss := val } else pure { s with tcpWscale := val }
  else pure s

/-- The inner loop; after a text that is not counted it is left. -/
def printData : Nat → Nat → Text → Scan Text
  | 0, _, t => pure t
  | optLen + 1, j, t =>
    if j < options.length then do
      let b ← Scan.byte options j
      match t.print (hexByte b) with
      | .stay t => printData optLen (j + 1) t
      | .leave t => pure t
    else pure t

/-- The data of an option; a timestamp is ignored. -/
def optionData (kind len : UInt8) (s : State) : Scan State :=
  if kind = 8 then pure s
  else if len > 2 then do
    let s ← keepValue options kind (s.i + 2) (len.toNat - 2) s
    match format with
    | .native => do
      let t ← printData options (len.toNat - 2) (s.i + 2) s.optionsFp
      pure { s with optionsFp := t }
    | .muonfp => pure s
  else pure s

/-- An option with a length, from its length on. -/
def optionBody (kind : UInt8) (s : State) : Scan State := do
  let len ← Scan.byte options (s.i + 1)
  if len = 0 then pure s
  else do
    let s ← optionData options format kind len s
    pure { s with i := (s.i + len.toNat) % 256 }

def optionTurn (s : State) : Scan (Turn State State) :=
  if s.i < options.length then do
    let kind ← Scan.byte options s.i
    match printKind format kind s with
    | .leave s => pure (.leave s)
    | .stay s =>
      if kind = 0 ∨ kind = 1 then pure (.stay { s with i := (s.i + 1) % 256 })
      else if s.i + 1 < options.length then do
        let s ← optionBody options format kind s
        pure (.stay s)
      else pure (.leave s)
  else pure (.leave s)

def optionsLoop (fuel : Nat) (s : State) : Scan State :=
  Scan.untilLeave (optionTurn options format) fuel s

end Ndpi.Source.TcpFingerprint
