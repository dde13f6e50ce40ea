import Gamelan.Files

namespace Gamelan

/-!
# WAVE files

A WAVE file is a RIFF header and a sequence of chunks: a format chunk, possibly others, and the data.
Samples are little-endian integers of 8, 16, 24 or 32 bits, or floating-point numbers of 32 bits.

* `WaveError`, `WaveFault` — why a file cannot be decoded.
* `WaveFormat` — what the format chunk says.
* `WaveHeader` — the format, and where the data is.
* `decodeWave` — the samples of a file, channels interleaved.
-/

/-- What is wrong with an ill-formed file. -/
inductive WaveFault where
  | noRiffTag
  | noWaveTag
  | shortFormat
  | noChannels
  | sampleTooNarrow
  | inconsistentFormat
  | partialBytes
  | noBits
  | formatSize
  | pcmBits
  | floatFormatSize
  | floatBits
  | extensibleSize
  | noFormat
  | partialSample
  | partialFrame
deriving DecidableEq, Repr

/-- The wording of a fault. -/
def WaveFault.message : WaveFault → String
  | noRiffTag => "no RIFF tag found"
  | noWaveTag => "no WAVE tag found"
  | shortFormat => "invalid fmt chunk size"
  | noChannels => "file contains zero channels"
  | sampleTooNarrow => "sample bits exceeds size of sample"
  | inconsistentFormat => "inconsistent fmt chunk"
  | partialBytes => "bits per sample is not a multiple of 8"
  | noBits => "bits per sample is 0"
  | formatSize => "unexpected fmt chunk size"
  | pcmBits => "bits per sample is not 8 or 16"
  | floatFormatSize => "unexpected WAVEFORMATEX size"
  | floatBits => "bits per sample is not 32"
  | extensibleSize => "unexpected WAVEFORMATEXTENSIBLE size"
  | noFormat => "missing fmt chunk"
  | partialSample => "data chunk length is not a multiple of sample size"
  | partialFrame => "invalid data chunk length"

/-- Why a file cannot be decoded. -/
inductive WaveError where
  /-- The file ends too early. -/
  | truncated
  /-- The file cannot be read. -/
  | unreadable (reason : FileError)
  | illFormed (fault : WaveFault)
  /-- A sample takes more than four bytes. -/
  | tooWide
  /-- A format of samples that is not known here. -/
  | unsupported
deriving DecidableEq, Repr

/-- The wording of an error. -/
def WaveError.message : WaveError → String
  | truncated => "Failed to read enough bytes."
  | unreadable reason => reason.message
  | illFormed fault => s!"Ill-formed WAVE file: {fault.message}"
  | tooWide => "The sample has more bits than the destination type."
  | unsupported => "The wave format of the file is not supported."

/-! ### Reading bytes -/

/-- Reads a value off a sequence of bytes. -/
abbrev ByteReader (α : Type) := StateT (List UInt8) (Except WaveError) α

/-- Bytes as a number, the lowest byte first. -/
def littleEndian : List UInt8 → Nat
  | [] => 0
  | byte :: rest => byte.toNat + 256 * littleEndian rest

namespace ByteReader

/-- The next `count` bytes. -/
def take (count : Nat) : ByteReader (List UInt8) := fun bytes =>
  let taken := bytes.take count
  if taken.length < count then .error .truncated else .ok (taken, bytes.drop count)

/-- The next `count` bytes as a number. -/
def number (count : Nat) : ByteReader Nat := do
  return littleEndian (← take count)

end ByteReader

open ByteReader

/-! ### The format -/

/-- How the bits of a sample are read. -/
inductive SampleKind where
  | int
  | float
deriving DecidableEq, Repr

/-- What the format chunk says. -/
structure WaveFormat where
  channels : Nat
  rate : Nat
  /-- The bits of a sample that count. -/
  bits : Nat
  kind : SampleKind
  /-- The bytes that a sample takes. -/
  bytes : Nat
deriving DecidableEq, Repr

/-- The end of the format chunk for integer samples. -/
def readPcm (size : Nat) (format : WaveFormat) : ByteReader WaveFormat := do
  if size = 16 then return format
  if size ≠ 18 ∧ size ≠ 40 then throw (.illFormed .formatSize)
  let _ ← take 2
  if format.bits ≠ 8 ∧ format.bits ≠ 16 ∧ format.bits ≠ 24 then throw (.illFormed .pcmBits)
  if size = 40 then
    let _ ← take 22
  return format

/-- The end of the format chunk for floating-point samples. -/
def readFloat (size : Nat) (format : WaveFormat) : ByteReader WaveFormat := do
  if size ≠ 16 ∧ size ≠ 18 then throw (.illFormed .formatSize)
  if size = 18 then
    if (← number 2) ≠ 0 then throw (.illFormed .floatFormatSize)
  if format.bits ≠ 32 then throw (.illFormed .floatBits)
  return { format with kind := .float }

/-- The end of the identifiers of sample kinds, after their first byte. -/
def subformatTail : List UInt8 :=
  [0, 0, 0, 0, 0, 0x10, 0, 0x80, 0, 0, 0xAA, 0, 0x38, 0x9B, 0x71]

/-- The kind of samples that an identifier stands for. -/
def subformat? : List UInt8 → Option SampleKind
  | 1 :: tail => if tail = subformatTail then some .int else none
  | 3 :: tail => if tail = subformatTail then some .float else none
  | _ => none

/-- The end of an extensible format chunk. -/
def readExtensible (size : Nat) (format : WaveFormat) : ByteReader WaveFormat := do
  if size < 40 then throw (.illFormed .formatSize)
  if (← number 2) ≠ 22 then throw (.illFormed .extensibleSize)
  let validBits ← number 2
  let _ ← take 4
  let some kind := subformat? (← take 16) | throw .unsupported
  return { format with kind := kind, bits := if validBits = 0 then format.bits else validBits }

/-- A format chunk of some size. -/
def readFormat (size : Nat) : ByteReader WaveFormat := do
  if size < 16 then throw (.illFormed .shortFormat)
  let tag ← number 2
  let channels ← number 2
  let rate ← number 4
  let bytesPerSecond ← number 4
  let frameBytes ← number 2
  let bits ← number 2
  if channels = 0 then throw (.illFormed .noChannels)
  let bytes := frameBytes / channels
  if Nat.pow 2 16 ≤ 8 * bytes ∨ 8 * bytes < bits then throw (.illFormed .sampleTooNarrow)
  if bytesPerSecond ≠ frameBytes * rate then throw (.illFormed .inconsistentFormat)
  if bits % 8 ≠ 0 then throw (.illFormed .partialBytes)
  if bits = 0 then throw (.illFormed .noBits)
  let format : WaveFormat := ⟨channels, rate, bits, .int, bytes⟩
  if tag = 0x0001 then readPcm size format
  else if tag = 0x0003 then readFloat size format
  else if tag = 0xFFFE then readExtensible size format
  else throw .unsupported

/-! ### Chunks -/

/-- The tag of a chunk, from its letters. -/
def tag (letters : String) : List UInt8 :=
  letters.toList.map fun c => UInt8.ofNat c.toNat

/-- The format of a file and the length of its data, in bytes. -/
structure WaveHeader where
  format : WaveFormat
  dataLength : Nat
deriving DecidableEq, Repr

/-- One chunk before the data: the format as far as it is known, or the header if the data follows.
A fact chunk is taken to hold four bytes. -/
def readChunk (format? : Option WaveFormat) :
    ByteReader (Option WaveFormat ⊕ WaveHeader) := do
  let kind ← take 4
  let size ← number 4
  if kind = tag "fmt " then return .inl (some (← readFormat size))
  if kind = tag "fact" then
    modify (·.drop 4)
    return .inl format?
  if kind = tag "data" then
    let some format := format? | throw (.illFormed .noFormat)
    return .inr ⟨format, size⟩
  let _ ← take size
  return .inl format?

/-- The chunks up to the data.  Every chunk takes some bytes, so `fuel` need not exceed their
number. -/
def readChunks (format? : Option WaveFormat) : (fuel : Nat) → ByteReader WaveHeader
  | 0 => throw .truncated
  | fuel + 1 => do
    match ← readChunk format? with
    | .inl format? => readChunks format? fuel
    | .inr header => return header

/-- A file up to its data. -/
def readHeader : ByteReader WaveHeader := do
  if (← take 4) ≠ tag "RIFF" then throw (.illFormed .noRiffTag)
  let _ ← take 4
  if (← take 4) ≠ tag "WAVE" then throw (.illFormed .noWaveTag)
  let header ← readChunks none ((← get).length + 1)
  if header.dataLength % header.format.bytes ≠ 0 then throw (.illFormed .partialSample)
  if header.dataLength / header.format.bytes % header.format.channels ≠ 0 then
    throw (.illFormed .partialFrame)
  return header

/-! ### Samples -/

/-- A number of `bits` bits as a signed one. -/
def signed (bits n : Nat) : Int :=
  if n < Nat.pow 2 (bits - 1) then n else (n : Int) - (Nat.pow 2 bits : Nat)

/-- An integer sample.  With 8 bits, zero is in the middle; 24 bits may come in four bytes, the last
of which does not count. -/
def readInt (format : WaveFormat) : ByteReader Int := do
  if format.bytes = 1 ∧ format.bits = 8 then return (← number 1) - 128
  else if format.bytes = 2 ∧ format.bits = 16 then return signed 16 (← number 2)
  else if format.bytes = 3 ∧ format.bits = 24 then return signed 24 (← number 3)
  else if format.bytes = 4 ∧ format.bits = 24 then return signed 24 ((← number 4) % Nat.pow 2 24)
  else if format.bytes = 4 ∧ format.bits = 32 then return signed 32 (← number 4)
  else if 4 < format.bytes then throw .tooWide
  else throw .unsupported

/-- A floating-point sample. -/
def readReal (format : WaveFormat) : ByteReader Float32 := do
  if format.bytes = 4 ∧ format.bits = 32 then return Float32.ofBits (UInt32.ofNat (← number 4))
  else if 4 < format.bytes then throw .tooWide
  else throw .unsupported

/-- A sample as an amplitude: integers are measured against the largest of their width. -/
def readSample (format : WaveFormat) : ByteReader Float32 := do
  match format.kind with
  | .int =>
    let value ← readInt format
    return (Float.ofInt value).toFloat32 / (Float.ofNat (Nat.pow 2 (format.bits - 1))).toFloat32
  | .float => readReal format

/-- Some samples. -/
def readSamples (format : WaveFormat) : Nat → ByteReader (List Float32)
  | 0 => return []
  | count + 1 => do
    let first ← readSample format
    let rest ← readSamples format count
    return first :: rest

/-- The format and the samples of a file, channels interleaved. -/
def decodeWave (bytes : List UInt8) : Except WaveError (WaveFormat × List Float32) := do
  let (header, rest) ← readHeader.run bytes
  let (samples, _) ←
    (readSamples header.format (header.dataLength / header.format.bytes)).run rest
  return (header.format, samples)

end Gamelan
