import Mathlib.Tactic
import Ldd3.Lib.CInt
import Ldd3.Buffer

/-!
The PCM5102A driver (`rpi-projects/dac/pcm5102a_i2s.c`): a cyclic DMA plays `tx_buf`, and the
callback of each period refills one period.
-/

namespace Ldd3.Dac

open CInt (int32)

def SAMPLES_PER_CYCLE : Nat := 48
def PERIOD_LEN : Nat := 256
def SAMPLE_SIZE : Nat := 2
def TX_BUF_LEN : Nat := 2048

def sinTable : List Int :=
  [0, 4276, 8480, 12539, 16383, 19947, 23169, 25995,
    28378, 30272, 31650, 32486, 32767, 32486, 31650, 30272,
    28378, 25995, 23169, 19947, 16383, 12539, 8480, 4276,
    0, -4277, -8481, -12540, -16384, -19948, -23170, -25996,
    -28379, -30273, -31651, -32487, -32768, -32487, -31651, -30273,
    -28379, -25996, -23170, -19948, -16384, -12540, -8481, -4277]

def sine (frame : Nat) : Int := sinTable.getD (frame % SAMPLES_PER_CYCLE) 0

/-- The loop of `fill_audio_buffer` from a frame on; `buf` is where `start` is in the buffer. -/
def fillFrames (buf : Nat) : Nat → Nat → Buffer Int → Except Oops (Buffer Int)
  | 0, _, buffer => .ok buffer
  | frames + 1, i, buffer => do
      let left ← buffer.store (buf + i * 2) [sine i]
      let right ← left.store (buf + (i * 2 + 1)) [sine i]
      fillFrames buf frames (i + 1) right

def fillAudioBuffer (buffer : Buffer Int) (buf len : Nat) : Except Oops (Buffer Int) :=
  fillFrames buf (int32 (len / (SAMPLE_SIZE * 2) : Nat)).toNat 0 buffer

structure Pcm5102aDev where
  txBuf : Buffer Int
  txBufLen : Nat
  periodIdx : Nat
  deriving Repr

/-- `max_period`, and the number of periods of the cyclic descriptor. -/
def Pcm5102aDev.maxPeriod (dev : Pcm5102aDev) : Nat :=
  CInt.uint32 (dev.txBufLen / PERIOD_LEN : Nat)

def pcm5102aTxCallback (dev : Pcm5102aDev) : Except Oops Pcm5102aDev := do
  let offsetBytes := CInt.uint32 (dev.periodIdx * PERIOD_LEN : Nat)
  let txBuf ← fillAudioBuffer dev.txBuf (offsetBytes / SAMPLE_SIZE) PERIOD_LEN
  if dev.maxPeriod = 0 then .error .divide
  else return { dev with
    txBuf := txBuf, periodIdx := CInt.uint32 (dev.periodIdx + 1) % dev.maxPeriod }

/-- What `pcm5102a_probe` prepares for the DMA; the allocated buffer is zero. -/
def pcm5102aProbe : Except Oops Pcm5102aDev := do
  let allocated : Buffer Int := List.replicate (TX_BUF_LEN / SAMPLE_SIZE) (some 0)
  let txBuf ← fillAudioBuffer allocated 0 TX_BUF_LEN
  return { txBuf := txBuf, txBufLen := TX_BUF_LEN, periodIdx := 0 }

/-- The running DMA: the period that it plays next, and the samples it has played so far, of
both channels in turn. -/
structure Playback where
  dev : Pcm5102aDev
  dmaPeriod : Nat
  played : List Int

def Playback.start (dev : Pcm5102aDev) : Playback := { dev := dev, dmaPeriod := 0, played := [] }

def playPeriod (sys : Playback) : Except Oops Playback := do
  let samples ← sys.dev.txBuf.load (sys.dmaPeriod * PERIOD_LEN / SAMPLE_SIZE)
    (PERIOD_LEN / SAMPLE_SIZE)
  let dev ← pcm5102aTxCallback sys.dev
  return { dev := dev, dmaPeriod := (sys.dmaPeriod + 1) % sys.dev.maxPeriod,
           played := sys.played ++ samples }

def playPeriods : Nat → Playback → Except Oops Playback
  | 0, sys => .ok sys
  | periods + 1, sys => do
      let next ← playPeriod sys
      playPeriods periods next

def playback (periods : Nat) : Except Oops Playback := do
  let dev ← pcm5102aProbe
  playPeriods periods (.start dev)

end Ldd3.Dac
