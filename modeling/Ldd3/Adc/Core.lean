import Mathlib.Tactic
import Ldd3.Kernel
import Ldd3.Lib.CInt

/-!
The asynchronous MCP3008 driver (`adc/mcp3008_spi_async.c`): the kfifo between the completed
conversions and `mcp3008_read`, for one open file.
-/

namespace Ldd3.Adc

open CInt (int32 int64)

def FIFO_SAMPLES : Nat := 1024
def EAGAIN : Int := 11

/-- The fifo, with the samples that were put into it and the bytes that reads returned. -/
structure AdcSys where
  fifo : List Nat
  converted : List Nat
  delivered : List Byte
  deriving DecidableEq, Repr

def AdcSys.opened : AdcSys := { fifo := [], converted := [], delivered := [] }

def sampleValue (rx1 rx2 : Byte) : Nat := (rx1.toNat % 4) * 256 + rx2.toNat

def mcp3008AsyncComplete (sys : AdcSys) (rx1 rx2 : Byte) : AdcSys :=
  if sys.fifo.length < FIFO_SAMPLES then
    { sys with
      fifo := sys.fifo ++ [sampleValue rx1 rx2]
      converted := sys.converted ++ [sampleValue rx1 rx2] }
  else sys

def sampleText (sample : Nat) : List Byte :=
  ((Nat.toDigits 10 sample).map fun digit => digit.toNat.toUInt8) ++ [10]

/-- The characters that `scnprintf` leaves in a row of 5 bytes, its result being their number. -/
def scnprintf (sample : Nat) : List Byte := (sampleText sample).take 4

/-- A row of `buf` after `scnprintf`: the characters, the terminator, and what the stack held. -/
def textRow (junk : Nat → Byte) (row sample : Nat) : List Byte :=
  let text := scnprintf sample
  text ++ 0 :: (List.range (4 - text.length)).map fun column => junk (5 * row + column)

structure ReadReply where
  sys : AdcSys
  ret : Int
  out : List Byte
  deriving DecidableEq, Repr

def numSamples (n count : Nat) : Int := min (n : Int) (int32 (count / 5 : Nat))

def copySamples (env : Env) (sys : AdcSys) (samples : List Nat) (count : Nat) : ReadReply :=
  let fitting := numSamples samples.length count
  if fitting = 0 then ⟨sys, -EAGAIN, []⟩
  else
    let texts := samples.take fitting.toNat
    let buf := (texts.zipIdx.map fun entry => textRow env.junk entry.2 entry.1).flatten
    let len := (texts.map fun sample => (scnprintf sample).length).sum
    let len := if count < len then count else len
    if env.faults len then ⟨sys, -EFAULT, []⟩ else ⟨sys, len, buf.take len⟩

/-- `mcp3008_read`; `none` while it sleeps on an empty fifo. -/
def mcp3008Read (env : Env) (nonblock : Bool) (sys : AdcSys) (count : Nat) : Option ReadReply :=
  if sys.fifo = [] then
    if nonblock then some ⟨sys, -EAGAIN, []⟩
    else if env.interrupted then some ⟨sys, -ERESTARTSYS, []⟩
    else none
  else
    let samples := sys.fifo.take FIFO_SAMPLES
    some (copySamples env { sys with fifo := sys.fifo.drop FIFO_SAMPLES } samples count)

inductive AdcAction
  | complete (rx1 rx2 : Byte)
  | read (env : Env) (nonblock : Bool) (count : Nat)

def adcStep (sys : AdcSys) : AdcAction → Option AdcSys
  | .complete rx1 rx2 => some (mcp3008AsyncComplete sys rx1 rx2)
  | .read env nonblock count =>
      (mcp3008Read env nonblock sys count).map fun reply =>
        { reply.sys with delivered := reply.sys.delivered ++ reply.out }

end Ldd3.Adc
