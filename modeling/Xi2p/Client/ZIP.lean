import Xi2p.Lib.InputStream

/-!
# Unzipping

`ZIP` of `client/util/zip.cc`.

Numbers are read as they stand in memory, the low byte first. What has been read into a member stays
until the next file, also where a read comes to the end of the stream. A loop of the source may go on
for ever; it is given `fuel`, and `none` is a run that has not ended. Memory is not exhausted by sizes
of 32 bits.

* `ZIP.unzip`: `Unzip`.
-/

namespace Client

open Bytes

/-- Functions of Crypto++, and what is in memory. -/
structure ZIPEnv where
  /-- What `DeflateDecompressor` retrieves from a buffer, unless it throws. -/
  inflate : List UInt8 → Option (List UInt8)
  /-- `CryptoPP::CRC32`, the low byte first. -/
  crc32 : List UInt8 → List UInt8
  /-- What `next_byte` holds if it is not read. -/
  nextByte : UInt8

/-- The members of `Data` that are read from the header of a local file. -/
structure LocalHeader where
  bitFlag : ℕ := 0
  compressionMethod : ℕ := 0
  crc32 : List UInt8 := List.replicate 4 0
  compressedSize : ℕ := 0
  uncompressedSize : ℕ := 0
  localFilenameLength : ℕ := 0
  extraFieldLength : ℕ := 0
  localFilename : List UInt8 := List.replicate 60 0

/-- `ZIP`. -/
structure ZIP where
  /-- `m_Stream`. -/
  stream : InputStream
  contentPosition : ℕ := 0
  contentLength : ℕ
  headerSignature : ℕ := 0
  header : LocalHeader := {}
  /-- `local_file_count`, which has 16 bits. -/
  localFileCount : UInt16 := 0
  /-- `compressed`. -/
  compressed : List UInt8 := []
  /-- `m_Contents`, in the order of insertion. -/
  contents : List (ℕ × List UInt8) := []

/-- `Signature::header`. -/
abbrev headerSignature : ℕ := 0x04034b50

/-- `Signature::central_dir_header`. -/
abbrev centralDirHeader : ℕ := 0x02014b50

/-- `Descriptor.signature`. -/
def descriptorSignature : List UInt8 := [0x50, 0x4b, 0x07, 0x08]

/-- `bit_flag & Descriptor.bit_flag`. -/
def hasDescriptorFlag (bitFlag : ℕ) : Bool := bitFlag &&& 8 ≠ 0

namespace ZIP

open InputStream

/-- `std::vector::resize`. -/
def resize (bs : List UInt8) (n : ℕ) : List UInt8 :=
  bs.take n ++ List.replicate (n - bs.length) 0

/-- The part of `PrepareLocalFile` before the check of the length of the filename. -/
def readSizes (old : LocalHeader) : StateM InputStream LocalHeader := do
  -- version needed to extract
  seekCur 2
  let bitFlag ← readNat 2 old.bitFlag
  let compressionMethod ← readNat 2 old.compressionMethod
  -- time and date
  seekCur 4
  let crc32 ← readOver old.crc32
  let compressedSize ← readNat 4 old.compressedSize
  let uncompressedSize ← readNat 4 old.uncompressedSize
  let localFilenameLength ← readNat 2 old.localFilenameLength
  return { old with
    bitFlag, compressionMethod, crc32, compressedSize, uncompressedSize, localFilenameLength }

/-- The part of `PrepareLocalFile` up to the data of the file. -/
def readNames (old : LocalHeader) : StateM InputStream LocalHeader := do
  let extraFieldLength ← readNat 2 old.extraFieldLength
  let name ← readOver (old.localFilename.take old.localFilenameLength)
  seekCur extraFieldLength
  return { old with
    extraFieldLength, localFilename := name ++ old.localFilename.drop old.localFilenameLength }

/-- `FindDataDescriptor`, from the byte `nextInd` of the signature on. -/
def findDataDescriptor (env : ZIPEnv) : ℕ → ℕ → InputStream → Option (Bool × InputStream)
  | 0, _, _ => none
  | fuel + 1, nextInd, s =>
    if s.eof then some (false, s)
    else
      let (got, s) := read 1 s
      if got.headD env.nextByte = descriptorSignature.getD nextInd 0 then
        if 4 ≤ nextInd + 1 then some (true, s) else findDataDescriptor env fuel (nextInd + 1) s
      else findDataDescriptor env fuel 0 s

/-- The members behind a data descriptor. -/
def readDescriptor (old : LocalHeader) : StateM InputStream LocalHeader := do
  let crc32 ← readOver old.crc32
  let compressedSize ← readNat 4 old.compressedSize
  let uncompressedSize ← readNat 4 old.uncompressedSize
  -- the signature counts as part of the data
  return { old with crc32, compressedSize := (compressedSize + 4) % 2 ^ 32, uncompressedSize }

/-- `PrepareLocalFile`. -/
def prepareLocalFile (env : ZIPEnv) (fuel : ℕ) (z : ZIP) : Option (Bool × ZIP) :=
  let (header, stream) := readSizes z.header z.stream
  let z := { z with stream, header }
  if header.localFilenameLength ≠ 59 then some (false, z)
  else
    let (header, stream) := readNames header stream
    let z := { z with stream, header }
    if hasDescriptorFlag header.bitFlag then
      let (pos, stream) := tellg stream
      match findDataDescriptor env fuel 0 stream with
      | none => none
      | some (false, stream) => some (false, { z with stream })
      | some (true, stream) =>
        let (header, stream) := readDescriptor header stream
        let (_, stream) := seekBeg pos stream
        some (true, { z with stream, header })
    else some (true, z)

/-- `m_Contents.insert`, with the number of the file. -/
def store (z : ZIP) (content : List UInt8) : ZIP :=
  let key := z.localFileCount.toNat
  { z with
    contents := if z.contents.any (·.1 = key) then z.contents else z.contents ++ [(key, content)]
    localFileCount := z.localFileCount + 1 }

/-- `DecompressLocalFile`. -/
def decompressLocalFile (env : ZIPEnv) (z : ZIP) : Bool × ZIP :=
  let (compressed, stream) := readOver (resize z.compressed z.header.compressedSize) z.stream
  let z := { z with stream, compressed }
  if z.header.compressionMethod = 8 then
    match env.inflate compressed with
    | none => (false, z)
    | some retrievable =>
      if retrievable.length ≤ z.header.uncompressedSize then
        let uncompressed := resize retrievable z.header.uncompressedSize
        if z.header.crc32 = env.crc32 uncompressed then (true, z.store uncompressed) else (false, z)
      else (false, z)
  -- a stored file is moved from `compressed`
  else if z.header.compressionMethod = 0 then (true, { z with compressed := [] }.store compressed)
  else (false, z)

/-- One file: `none` in the middle is a run that goes on with the next file. -/
def unzipFile (env : ZIPEnv) (fuel : ℕ) (z : ZIP) : Option (Option Bool × ZIP) :=
  let (signature, stream) := readNat 4 z.headerSignature z.stream
  let z := { z with stream, headerSignature := signature }
  if signature = Client.headerSignature then
    match prepareLocalFile env fuel z with
    | none => none
    | some (false, z) => some (some false, z)
    | some (true, z) =>
      match decompressLocalFile env z with
      | (false, z) => some (some false, z)
      | (true, z) =>
        let stream := if hasDescriptorFlag z.header.bitFlag then (seekCur 12 z.stream).2 else z.stream
        let (last, stream) := tellg stream
        let z := { z with stream }
        -- the content has been unzipped
        if z.contentLength ≤ (last + 2 ^ 64 - z.contentPosition) % 2 ^ 64 then some (some true, z)
        else some (none, z)
  else some (some (signature = centralDirHeader), z)

/-- The loop of `Unzip`. -/
def unzipFiles (env : ZIPEnv) : ℕ → ZIP → Option (Bool × ZIP)
  | 0, _ => none
  | fuel + 1, z =>
    if z.stream.eof then some (true, z)
    else
      match unzipFile env fuel z with
      | none => none
      | some (some result, z) => some (result, z)
      | some (none, z) => unzipFiles env fuel z

/-- `Unzip`. -/
def unzip (env : ZIPEnv) (fuel : ℕ) (z : ZIP) : Option (Bool × ZIP) :=
  unzipFiles env fuel { z with stream := (seekBeg z.contentPosition z.stream).2 }

/-- `ZIP(zip, len, pos)`. -/
def ofStream (zip : List UInt8) (len pos : ℕ) : ZIP where
  stream := { bytes := zip }
  contentPosition := pos
  contentLength := len

end ZIP

end Client
