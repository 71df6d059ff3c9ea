import Xi2p.Client.ZIP
import Xi2p.Lib.CBC

/-!
# Archives

ZIP archives of files with names of 59 characters, each stored or deflated, each with or without a data
descriptor, and what `ZIP::Unzip` makes of them.

A data descriptor is found by its signature. `FindDataDescriptor` does not look again at a byte that
ends a partial match, and takes the first place where the signature stands; `ArchivedFile.Scanned` says
that this is the place of the descriptor. The data are then read up to behind the signature. A deflated
file ends by itself, but a stored one gets the signature; and nothing compares the checksum of a stored
file.

* `Archive.Extracted`: the files come out, or the archive is refused if a checksum is wrong.
* `Archive.extracted_iff`: when they do.
-/

namespace Client

open Bytes InputStream
open CBC (Block)

variable (env : ZIPEnv)

/-- A compression method. -/
inductive CompressionMethod
  | stored
  | deflate
  deriving DecidableEq

/-- The number of a method. -/
def CompressionMethod.code : CompressionMethod → ℕ
  | stored => 0
  | deflate => 8

/-- The data of a file with the content. A deflated file ends by itself. -/
def CompressionMethod.Encodes (data content : List UInt8) : CompressionMethod → Prop
  | stored => data = content
  | deflate => ∀ post, env.inflate (data ++ post) = some content

/-- A file in an archive. -/
structure ArchivedFile where
  version : Block 2
  bitFlag : UInt16
  method : CompressionMethod
  /-- Time and date. -/
  lastMod : Block 4
  /-- The checksum in the header or in the data descriptor. -/
  crc32 : Block 4
  /-- What stands in the header if a data descriptor gives the checksum and the sizes. -/
  notYetKnown : Block 12
  filename : Block 59
  extraField : List UInt8
  extraField_lt : extraField.length < 2 ^ 16
  data : List UInt8
  data_lt : data.length < 2 ^ 32
  content : List UInt8
  content_lt : content.length < 2 ^ 32
  encodes : method.Encodes env data content

namespace ArchivedFile

variable {env}

/-- A data descriptor follows. -/
def hasDescriptor (f : ArchivedFile env) : Bool := hasDescriptorFlag f.bitFlag.toNat

/-- The checksum is that of the content. -/
def ChecksumMatches (f : ArchivedFile env) : Prop := f.crc32.bytes = env.crc32 f.content

instance (f : ArchivedFile env) : Decidable f.ChecksumMatches :=
  inferInstanceAs (Decidable (_ = _))

/-- The checksum and the sizes. -/
def sizes (f : ArchivedFile env) : List UInt8 :=
  f.crc32.bytes ++ writeLE 4 f.data.length ++ writeLE 4 f.content.length

theorem length_sizes (f : ArchivedFile env) : f.sizes.length = 12 := by
  rw [sizes, List.length_append, List.length_append, Block.length_bytes, length_writeLE,
    length_writeLE]

/-- The header, up to the length of the filename. -/
def headerBytes (f : ArchivedFile env) : List UInt8 :=
  f.version.bytes ++ writeLE 2 f.bitFlag.toNat ++ writeLE 2 f.method.code ++ f.lastMod.bytes ++
    (if f.hasDescriptor then f.notYetKnown.bytes else f.sizes) ++ writeLE 2 59

/-- The rest of the header. -/
def namesBytes (f : ArchivedFile env) : List UInt8 :=
  writeLE 2 f.extraField.length ++ f.filename.bytes ++ f.extraField

/-- What stands behind the data. -/
def descriptorBytes (f : ArchivedFile env) : List UInt8 :=
  if f.hasDescriptor then descriptorSignature ++ f.sizes else []

/-- The bytes of a file. -/
def bytes (f : ArchivedFile env) : List UInt8 :=
  writeLE 4 headerSignature ++ f.headerBytes ++ f.namesBytes ++ f.data ++ f.descriptorBytes

theorem length_bytes (f : ArchivedFile env) : f.bytes.length =
    f.data.length + f.extraField.length + 89 + if f.hasDescriptor then 16 else 0 := by
  have hsizes : (if f.hasDescriptor then f.notYetKnown.bytes else f.sizes).length = 12 := by
    split
    · exact f.notYetKnown.length_bytes
    · exact f.length_sizes
  have hdescriptor : f.descriptorBytes.length = if f.hasDescriptor then 16 else 0 := by
    rw [descriptorBytes]
    split
    · rw [List.length_append, f.length_sizes]
      rfl
    · rfl
  rw [bytes, headerBytes, namesBytes]
  simp only [List.length_append, hsizes, hdescriptor, Block.length_bytes, length_writeLE]
  omega

theorem length_data_lt (f : ArchivedFile env) : f.data.length + 4 < f.bytes.length := by
  rw [f.length_bytes]
  omega

theorem length_bytes_lt (f : ArchivedFile env) : f.bytes.length < 2 ^ 33 := by
  have hdata := f.data_lt
  have hextra := f.extraField_lt
  rw [f.length_bytes]
  split <;> omega

end ArchivedFile

/-- An archive. What stands behind the signature of the central directory is not read. -/
structure Archive where
  files : List (ArchivedFile env)
  length_lt : files.length < 2 ^ 16
  directory : List UInt8

namespace Archive

variable {env}

/-- The central directory starts with the header of a file, or it is the end record. -/
def directorySignature (a : Archive env) : List UInt8 :=
  if a.files.isEmpty then [0x50, 0x4b, 0x05, 0x06] else writeLE 4 centralDirHeader

/-- The bytes of an archive. -/
def bytes (a : Archive env) : List UInt8 :=
  a.files.flatMap ArchivedFile.bytes ++ a.directorySignature ++ a.directory

/-- `Unzip`, of the archive. -/
def unzip (a : Archive env) (fuel : ℕ) : Option (Bool × ZIP) :=
  ZIP.unzip env fuel (ZIP.ofStream a.bytes a.bytes.length 0)

/-- The checksums are those of the contents. -/
def ChecksumsMatch (a : Archive env) : Prop := ∀ f ∈ a.files, f.ChecksumMatches

instance (a : Archive env) : Decidable a.ChecksumsMatch :=
  inferInstanceAs (Decidable (∀ f ∈ a.files, f.ChecksumMatches))

/-- The files come out under their numbers, or the archive is refused if a checksum is wrong. -/
def Extracted (a : Archive env) (fuel : ℕ) : Prop :=
  if a.ChecksumsMatch then
    ∃ z, a.unzip fuel = some (true, z) ∧ z.contents = a.files.mapIdx fun i f => (i, f.content)
  else ∃ z, a.unzip fuel = some (false, z)

end Archive

/-! ## Finding the data descriptor -/

/-- How far the signature has been matched behind the bytes, unless it was found among them. -/
def scanFrom : ℕ → List UInt8 → Option ℕ
  | nextInd, [] => some nextInd
  | nextInd, b :: bs =>
    if b = descriptorSignature.getD nextInd 0 then
      if 4 ≤ nextInd + 1 then none else scanFrom (nextInd + 1) bs
    else scanFrom 0 bs

/-- The signature is found behind the data and not before, and the size of data and signature has 32
bits. -/
def ArchivedFile.Scanned {env : ZIPEnv} (f : ArchivedFile env) : Prop :=
  f.hasDescriptor → scanFrom 0 f.data = some 0 ∧ f.data.length + 4 < 2 ^ 32

theorem scanFrom_append {nextInd nextInd' : ℕ} {xs : List UInt8} (h : scanFrom nextInd xs = some nextInd')
    (ys : List UInt8) : scanFrom nextInd (xs ++ ys) = scanFrom nextInd' ys := by
  induction xs generalizing nextInd with
  | nil =>
    rw [scanFrom, Option.some.injEq] at h
    rw [h]
    rfl
  | cons x xs ih =>
    rw [scanFrom] at h
    rw [List.cons_append, scanFrom]
    split
    next hmatch =>
      rw [if_pos hmatch] at h
      split
      next hfound =>
        rw [if_pos hfound] at h
        cases h
      next hmore =>
        rw [if_neg hmore] at h
        exact ih h
    next hmiss =>
      rw [if_neg hmiss] at h
      exact ih h

namespace ArchivedFile

variable {env}

/-- What is read as the data of a file. -/
def dataRead (f : ArchivedFile env) : List UInt8 :=
  f.data ++ if f.hasDescriptor then descriptorSignature else []

/-- What comes out: of a stored file with a data descriptor, the data and the signature. -/
def extracted (f : ArchivedFile env) : List UInt8 :=
  if f.method = .stored ∧ f.hasDescriptor then f.data ++ descriptorSignature else f.content

end ArchivedFile

namespace ZIP

theorem findDataDescriptor_of_scanFrom (fuel : ℕ) {xs ys : List UInt8} {nextInd nextInd' : ℕ}
    (hscan : scanFrom nextInd xs = some nextInd') {s : InputStream} (h : s.Holds (xs ++ ys)) :
    findDataDescriptor env (fuel + xs.length) nextInd s =
      findDataDescriptor env fuel nextInd' (s.skip xs.length) := by
  induction xs generalizing nextInd s with
  | nil =>
    rw [scanFrom, Option.some.injEq] at hscan
    rw [hscan]
    rfl
  | cons x xs ih =>
    have hx : s.Holds ([x] ++ (xs ++ ys)) := h
    have hread : read 1 s = ([x], s.skip 1) := hx.read
    have hskip : (s.skip 1).Holds (xs ++ ys) := hx.skip
    have heof : s.eof = false := h.eof
    have hlen : (s.skip 1).skip xs.length = s.skip (xs.length + 1) := by
      rw [skip_skip, Nat.add_comm]
    rw [List.length_cons, ← Nat.add_assoc, findDataDescriptor, heof, if_neg Bool.false_ne_true, hread]
    dsimp only
    rw [List.headD_cons]
    rw [scanFrom] at hscan
    split at hscan
    next hmatch =>
      rw [if_pos hmatch]
      split at hscan
      · cases hscan
      next hmore => rw [if_neg hmore, ih hscan hskip, hlen]
    next hmiss => rw [if_neg hmiss, ih hscan hskip, hlen]

/-- The signature is found behind bytes that it is not among. -/
theorem findDataDescriptor_spec (fuel : ℕ) {xs ys : List UInt8} (hscan : scanFrom 0 xs = some 0)
    {s : InputStream} (h : s.Holds (xs ++ descriptorSignature ++ ys)) :
    findDataDescriptor env (fuel + (xs.length + 4)) 0 s = some (true, s.skip (xs.length + 4)) := by
  have hpart : scanFrom 0 (xs ++ [0x50, 0x4b, 0x07]) = some 3 := by
    rw [scanFrom_append hscan]
    decide
  have hholds : s.Holds ((xs ++ [0x50, 0x4b, 0x07]) ++ ([0x08] ++ ys)) := by
    rw [List.append_assoc]
    rwa [List.append_assoc] at h
  have hlen : (xs ++ [0x50, 0x4b, 0x07]).length = xs.length + 3 := List.length_append
  have hlast : (s.skip (xs.length + 3)).Holds ([0x08] ++ ys) := hlen ▸ hholds.skip
  have hread : read 1 (s.skip (xs.length + 3)) = ([0x08], s.skip (xs.length + 4)) := hlast.read
  have heof : (s.skip (xs.length + 3)).eof = false := hlast.eof
  have hfind := findDataDescriptor_of_scanFrom env (fuel + 1) hpart hholds
  rw [hlen, findDataDescriptor, heof, if_neg Bool.false_ne_true, hread] at hfind
  dsimp only at hfind
  rw [List.headD_cons, if_pos (by decide), if_pos (by decide)] at hfind
  rw [← hfind]
  congr 1
  omega

/-! ## Reading a file -/

variable {env}

/-- The members that the header and the data descriptor of a file give. -/
structure Describes (h : LocalHeader) (f : ArchivedFile env) : Prop where
  bitFlag : h.bitFlag = f.bitFlag.toNat
  compressionMethod : h.compressionMethod = f.method.code
  crc32 : h.crc32 = f.crc32.bytes
  compressedSize : h.compressedSize = f.data.length + if f.hasDescriptor then 4 else 0
  uncompressedSize : h.uncompressedSize = f.content.length
  length_localFilename : h.localFilename.length = 60

/-- The sizes of the members. -/
structure Sized (h : LocalHeader) : Prop where
  crc32 : h.crc32.length = 4
  localFilename : h.localFilename.length = 60

/-- What `readSizes` has read. -/
theorem reads_readSizes {old : LocalHeader} (hold : Sized old) (f : ArchivedFile env)
    {crc32 compressedSize uncompressedSize : List UInt8} (hcrc : crc32.length = 4)
    (hcompressed : compressedSize.length = 4) (huncompressed : uncompressedSize.length = 4) :
    Reads (readSizes old)
      (f.version.bytes ++ writeLE 2 f.bitFlag.toNat ++ writeLE 2 f.method.code ++ f.lastMod.bytes ++
        (crc32 ++ compressedSize ++ uncompressedSize) ++ writeLE 2 59)
      { old with
        bitFlag := f.bitFlag.toNat
        compressionMethod := f.method.code
        crc32
        compressedSize := readLE compressedSize
        uncompressedSize := readLE uncompressedSize
        localFilenameLength := 59 } := by
  have hversion : Reads (seekCur 2) f.version.bytes () := by
    have h := reads_seekCur f.version.bytes
    rwa [Block.length_bytes] at h
  have hlastMod : Reads (seekCur 4) f.lastMod.bytes () := by
    have h := reads_seekCur f.lastMod.bytes
    rwa [Block.length_bytes] at h
  have hflag := reads_readNat old.bitFlag (length_writeLE 2 f.bitFlag.toNat)
  have hmethod := reads_readNat old.compressionMethod (length_writeLE 2 f.method.code)
  have hname := reads_readNat old.localFilenameLength (length_writeLE 2 59)
  rw [readLE_writeLE (by exact f.bitFlag.toNat_lt)] at hflag
  rw [readLE_writeLE (by cases f.method <;> decide)] at hmethod
  rw [readLE_writeLE (by decide)] at hname
  simp only [List.append_assoc]
  refine hversion.bind (hflag.bind (hmethod.bind (hlastMod.bind ?_)))
  refine (reads_readOver (hcrc.trans hold.crc32.symm)).bind ?_
  refine (reads_readNat old.compressedSize hcompressed).bind ?_
  refine (reads_readNat old.uncompressedSize huncompressed).bind ?_
  exact hname.bind_pure _

/-- The header of a file: the checksum and the sizes are right unless a data descriptor follows. -/
theorem reads_headerBytes {old : LocalHeader} (hold : Sized old) (f : ArchivedFile env) :
    ∃ header, Reads (readSizes old) f.headerBytes header ∧ Sized header ∧
      header.localFilenameLength = 59 ∧ header.bitFlag = f.bitFlag.toNat ∧
      header.compressionMethod = f.method.code ∧
      (f.hasDescriptor = false → header.crc32 = f.crc32.bytes ∧
        header.compressedSize = f.data.length ∧ header.uncompressedSize = f.content.length) := by
  rw [ArchivedFile.headerBytes]
  rcases hdescriptor : f.hasDescriptor
  · have hreads := reads_readSizes hold f f.crc32.length_bytes (length_writeLE 4 f.data.length)
      (length_writeLE 4 f.content.length)
    refine ⟨_, hreads, ⟨f.crc32.length_bytes, hold.localFilename⟩, rfl, rfl, rfl, fun _ => ?_⟩
    exact ⟨rfl, readLE_writeLE f.data_lt, readLE_writeLE f.content_lt⟩
  · generalize hcrc : f.notYetKnown.bytes.take 4 = crc32
    generalize hcompressed : (f.notYetKnown.bytes.drop 4).take 4 = compressedSize
    generalize huncompressed : f.notYetKnown.bytes.drop 8 = uncompressedSize
    have hcrcLen : crc32.length = 4 := by simp [← hcrc]
    have hcompressedLen : compressedSize.length = 4 := by simp [← hcompressed]
    have huncompressedLen : uncompressedSize.length = 4 := by simp [← huncompressed]
    have hbytes : f.notYetKnown.bytes = crc32 ++ compressedSize ++ uncompressedSize := by
      have hdrop : f.notYetKnown.bytes.drop 8 = (f.notYetKnown.bytes.drop 4).drop 4 := by
        rw [List.drop_drop]
      rw [← hcrc, ← hcompressed, ← huncompressed, List.append_assoc, hdrop, List.take_append_drop,
        List.take_append_drop]
    have hreads := reads_readSizes hold f hcrcLen hcompressedLen huncompressedLen
    rw [if_pos rfl, hbytes]
    exact ⟨_, hreads, ⟨hcrcLen, hold.localFilename⟩, rfl, rfl, rfl, nofun⟩

theorem reads_namesBytes {old : LocalHeader} (hold : Sized old) (hlen : old.localFilenameLength = 59)
    (f : ArchivedFile env) : ∃ extraFieldLength localFilename, localFilename.length = 60 ∧
      Reads (readNames old) f.namesBytes { old with extraFieldLength, localFilename } := by
  have hextra := reads_readNat old.extraFieldLength (length_writeLE 2 f.extraField.length)
  rw [readLE_writeLE f.extraField_lt] at hextra
  have hname : f.filename.bytes.length = (old.localFilename.take old.localFilenameLength).length := by
    simp [hlen, hold.localFilename]
  have hskip := reads_seekCur f.extraField
  refine ⟨f.extraField.length, f.filename.bytes ++ old.localFilename.drop old.localFilenameLength,
    ?_, ?_⟩
  · simp [hlen, hold.localFilename]
  · rw [ArchivedFile.namesBytes, List.append_assoc]
    exact hextra.bind ((reads_readOver hname).bind (hskip.bind_pure _))

theorem reads_readDescriptor {old : LocalHeader} (hold : Sized old) (f : ArchivedFile env)
    (hlt : f.data.length + 4 < 2 ^ 32) :
    Reads (readDescriptor old) f.sizes { old with
      crc32 := f.crc32.bytes
      compressedSize := f.data.length + 4
      uncompressedSize := f.content.length } := by
  have hcrc : f.crc32.bytes.length = old.crc32.length := by
    rw [hold.crc32]
    exact f.crc32.length_bytes
  have hcompressed := reads_readNat old.compressedSize (length_writeLE 4 f.data.length)
  have huncompressed := reads_readNat old.uncompressedSize (length_writeLE 4 f.content.length)
  rw [readLE_writeLE f.data_lt] at hcompressed
  rw [readLE_writeLE f.content_lt] at huncompressed
  rw [ArchivedFile.sizes, List.append_assoc]
  refine (reads_readOver hcrc).bind (hcompressed.bind ?_)
  have h := huncompressed.bind_pure fun uncompressedSize =>
    ({ old with
      crc32 := f.crc32.bytes
      compressedSize := f.data.length + 4
      uncompressedSize } : LocalHeader)
  rwa [Nat.mod_eq_of_lt hlt]

/-- `PrepareLocalFile` reads the header of a file and comes to stand in front of its data. -/
theorem prepareLocalFile_spec {z : ZIP} (hsized : Sized z.header) (f : ArchivedFile env)
    (hscanned : f.Scanned) {rest : List UInt8}
    (h : z.stream.Holds (f.headerBytes ++ f.namesBytes ++ (f.data ++ f.descriptorBytes ++ rest)))
    (fuel : ℕ) : ∃ header, Describes header f ∧
      prepareLocalFile env (fuel + (f.data.length + 4)) z = some (true, { z with
        stream := z.stream.skip (f.headerBytes ++ f.namesBytes).length
        header }) := by
  obtain ⟨header, hreads, hsized, hname, hflag, hmethod, hsizes⟩ := reads_headerBytes hsized f
  obtain ⟨extraFieldLength, localFilename, hfilename, hnames⟩ := reads_namesBytes hsized hname f
  rw [List.append_assoc] at h
  have hheader := hreads _ _ h
  have hnamesEq := hnames _ _ h.skip
  rw [skip_skip, ← List.length_append] at hnamesEq
  rw [← List.append_assoc] at h
  have hdata := h.skip
  generalize z.stream.skip (f.headerBytes ++ f.namesBytes).length = stream at hnamesEq hdata ⊢
  have hdescriptorFlag : hasDescriptorFlag header.bitFlag = f.hasDescriptor := by
    rw [hflag]
    rfl
  rw [prepareLocalFile, hheader]
  dsimp only
  rw [if_neg (not_not.mpr hname), hnamesEq]
  dsimp only
  rw [hdescriptorFlag]
  rcases hdescriptor : f.hasDescriptor
  · obtain ⟨hcrc, hcompressed, huncompressed⟩ := hsizes hdescriptor
    refine ⟨{ header with extraFieldLength, localFilename }, ?_, rfl⟩
    exact
      { bitFlag := hflag
        compressionMethod := hmethod
        crc32 := hcrc
        compressedSize := by
          rw [hdescriptor]
          exact hcompressed
        uncompressedSize := huncompressed
        length_localFilename := hfilename }
  · obtain ⟨hscan, hlt⟩ := hscanned hdescriptor
    have hbytes : f.data ++ f.descriptorBytes ++ rest =
        f.data ++ descriptorSignature ++ (f.sizes ++ rest) := by
      rw [ArchivedFile.descriptorBytes, hdescriptor, if_pos rfl]
      simp only [List.append_assoc]
    have hpos := hdata.pos_le
    rw [hbytes] at hdata
    have hfind := findDataDescriptor_spec env fuel hscan hdata
    have hbehind : (stream.skip (f.data.length + 4)).Holds (f.sizes ++ rest) := by
      have hskip := hdata.skip
      rwa [List.length_append] at hskip
    have hsized' : Sized { header with extraFieldLength, localFilename } :=
      { crc32 := hsized.crc32, localFilename := hfilename }
    have hread := reads_readDescriptor hsized' f hlt _ _ hbehind
    rw [if_pos rfl, hdata.tellg]
    dsimp only
    rw [hfind]
    dsimp only
    rw [hread]
    dsimp only
    rw [hbehind.skip.seekBeg hpos]
    refine ⟨_, ?_, rfl⟩
    exact
      { bitFlag := hflag
        compressionMethod := hmethod
        crc32 := rfl
        compressedSize := by
          rw [hdescriptor]
          rfl
        uncompressedSize := rfl
        length_localFilename := hfilename }

/-! ## Unpacking a file -/

/-- What is read as the data of a file, and what is left of the descriptor. -/
theorem data_descriptorBytes (f : ArchivedFile env) : f.data ++ f.descriptorBytes =
    f.dataRead ++ if f.hasDescriptor then f.sizes else [] := by
  rw [ArchivedFile.dataRead, ArchivedFile.descriptorBytes]
  split
  · exact (List.append_assoc ..).symm
  · simp

theorem store_spec {z : ZIP} (content : List UInt8)
    (hkeys : ∀ c ∈ z.contents, c.1 < z.localFileCount.toNat) :
    z.store content = { z with
      contents := z.contents ++ [(z.localFileCount.toNat, content)]
      localFileCount := z.localFileCount + 1 } := by
  have hnew : z.contents.any (·.1 = z.localFileCount.toNat) = false :=
    List.any_eq_false.mpr fun c hc => by simpa using (hkeys c hc).ne
  rw [store, hnew, if_neg Bool.false_ne_true]

theorem length_resize (bs : List UInt8) (n : ℕ) : (resize bs n).length = n := by
  rw [resize, List.length_append, List.length_take, List.length_replicate]
  omega

theorem resize_length (bs : List UInt8) : resize bs bs.length = bs := by
  rw [resize, List.take_length, Nat.sub_self, List.replicate_zero, List.append_nil]

/-- `DecompressLocalFile` stores a file unless it is deflated with a wrong checksum. -/
theorem decompressLocalFile_spec {z : ZIP} {f : ArchivedFile env} (hdescribes : Describes z.header f)
    {rest : List UInt8} (h : z.stream.Holds (f.dataRead ++ rest))
    (hkeys : ∀ c ∈ z.contents, c.1 < z.localFileCount.toNat) :
    if f.method = .deflate ∧ ¬ f.ChecksumMatches then
      ∃ z', decompressLocalFile env z = (false, z')
    else ∃ compressed, decompressLocalFile env z = (true, { z with
      stream := z.stream.skip f.dataRead.length
      compressed
      contents := z.contents ++ [(z.localFileCount.toNat, f.extracted)]
      localFileCount := z.localFileCount + 1 }) := by
  have hlen : f.dataRead.length = (resize z.compressed z.header.compressedSize).length := by
    rw [length_resize, hdescribes.compressedSize, ArchivedFile.dataRead, List.length_append]
    split <;> rfl
  have hread := reads_readOver hlen _ _ h
  rw [decompressLocalFile, hread]
  dsimp only
  rw [hdescribes.compressionMethod]
  have hencodes := f.encodes
  rcases hmethod : f.method
  · have hnot : ¬ (CompressionMethod.stored = .deflate ∧ ¬ f.ChecksumMatches) := fun hboth =>
      nomatch hboth.1
    have hextracted : f.extracted = f.dataRead := by
      rw [hmethod] at hencodes
      have hdata : f.data = f.content := hencodes
      rw [ArchivedFile.extracted, ArchivedFile.dataRead, hmethod]
      split
      next hboth => rw [hboth.2, if_pos rfl]
      next hplain =>
        have hnone : f.hasDescriptor = false := by simpa using hplain
        rw [hnone, if_neg Bool.false_ne_true, List.append_nil, hdata]
    rw [if_neg hnot, if_neg (by decide), if_pos (show CompressionMethod.stored.code = 0 from rfl),
      store_spec f.dataRead (by exact hkeys), hextracted]
    exact ⟨[], rfl⟩
  · rw [hmethod] at hencodes
    have hinflate : env.inflate f.dataRead = some f.content := hencodes _
    have hextracted : f.extracted = f.content := by
      rw [ArchivedFile.extracted, hmethod]
      exact if_neg fun hboth => nomatch hboth.1
    rw [if_pos (show CompressionMethod.deflate.code = 8 from rfl), hinflate]
    dsimp only
    rw [hdescribes.uncompressedSize, if_pos le_rfl, resize_length, hdescribes.crc32]
    by_cases hmatch : f.ChecksumMatches
    · rw [if_neg (fun hboth => hboth.2 hmatch), if_pos (show _ = _ from hmatch),
        store_spec f.content (by exact hkeys), hextracted]
      exact ⟨f.dataRead, rfl⟩
    · rw [if_pos ⟨rfl, hmatch⟩, if_neg (show ¬ _ = _ from hmatch)]
      exact ⟨_, rfl⟩

/-- A file is unpacked, and the stream stands behind it, unless its checksum is found to be wrong. -/
theorem unzipFile_spec {z : ZIP} (hsized : Sized z.header) (f : ArchivedFile env)
    (hscanned : f.Scanned) {rest : List UInt8} (h : z.stream.Holds (f.bytes ++ rest))
    (hkeys : ∀ c ∈ z.contents, c.1 < z.localFileCount.toNat)
    (hposition : z.contentPosition ≤ z.stream.pos)
    (hmore : z.stream.pos + f.bytes.length < z.contentPosition + z.contentLength)
    (hlt : z.stream.pos + f.bytes.length < 2 ^ 64) (fuel : ℕ) :
    if f.method = .deflate ∧ ¬ f.ChecksumMatches then
      ∃ z', unzipFile env (fuel + (f.data.length + 4)) z = some (some false, z')
    else ∃ header compressed, Sized header ∧
      unzipFile env (fuel + (f.data.length + 4)) z = some (none, { z with
        stream := z.stream.skip f.bytes.length
        headerSignature := Client.headerSignature
        header
        compressed
        contents := z.contents ++ [(z.localFileCount.toNat, f.extracted)]
        localFileCount := z.localFileCount + 1 }) := by
  have hbytes : f.bytes ++ rest = writeLE 4 Client.headerSignature ++
      (f.headerBytes ++ f.namesBytes ++ (f.data ++ f.descriptorBytes ++ rest)) := by
    rw [ArchivedFile.bytes]
    simp only [List.append_assoc]
  have hread := reads_readNat z.headerSignature (length_writeLE 4 Client.headerSignature)
  rw [readLE_writeLE (by decide)] at hread
  have hsignature := hread _ _ (hbytes ▸ h)
  have hbehind := (hbytes ▸ h : z.stream.Holds _).skip
  obtain ⟨header, hdescribes, hprepare⟩ := prepareLocalFile_spec
    (z := { z with
      stream := z.stream.skip (writeLE 4 Client.headerSignature).length
      headerSignature := Client.headerSignature }) hsized f hscanned hbehind fuel
  have hdata := hbehind.skip
  rw [data_descriptorBytes, List.append_assoc] at hdata
  have hdecompress := decompressLocalFile_spec
    (z := { z with
      stream := (z.stream.skip (writeLE 4 Client.headerSignature).length).skip
        (f.headerBytes ++ f.namesBytes).length
      headerSignature := Client.headerSignature
      header }) hdescribes hdata hkeys
  rw [unzipFile, hsignature]
  dsimp only
  rw [if_pos rfl, hprepare]
  dsimp only
  split at hdecompress
  next hwrong =>
    obtain ⟨z', hz'⟩ := hdecompress
    rw [if_pos hwrong, hz']
    exact ⟨z', rfl⟩
  next hright =>
    obtain ⟨compressed, hz'⟩ := hdecompress
    rw [if_neg hright, hz']
    dsimp only
    have hlast := (hdata.skip : InputStream.Holds _ _)
    generalize hdataEnd : ((z.stream.skip (writeLE 4 Client.headerSignature).length).skip
      (f.headerBytes ++ f.namesBytes).length).skip f.dataRead.length = dataEnd at hlast ⊢
    have hskip : dataEnd.skip (if f.hasDescriptor then f.sizes else []).length =
        z.stream.skip f.bytes.length := by
      rw [← hdataEnd, skip_skip, skip_skip, skip_skip]
      congr 1
      have hlen := congrArg List.length (data_descriptorBytes f)
      rw [List.length_append, List.length_append] at hlen
      rw [ArchivedFile.bytes]
      simp only [List.length_append] at hlen ⊢
      omega
    have hstream : (if hasDescriptorFlag header.bitFlag then (seekCur 12 dataEnd).2 else dataEnd) =
        z.stream.skip f.bytes.length := by
      rw [hdescribes.bitFlag, ← hskip]
      rw [show hasDescriptorFlag f.bitFlag.toNat = f.hasDescriptor from rfl]
      split
      next hdescriptor =>
        rw [hdescriptor, if_pos rfl] at hlast
        have hseek := reads_seekCur f.sizes _ _ hlast
        rw [f.length_sizes] at hseek
        rw [hseek, f.length_sizes]
      · rfl
    have hend : (z.stream.skip f.bytes.length).Holds rest := h.skip
    rw [hstream, hend.tellg]
    dsimp only [skip_pos]
    rw [if_neg (by omega)]
    exact ⟨header, compressed, ⟨hdescribes.crc32 ▸ f.crc32.length_bytes,
      hdescribes.length_localFilename⟩, rfl⟩

/-! ## Unpacking the files -/

/-- Behind the files, `Unzip` looks for the central directory. -/
theorem unzipFile_signature {z : ZIP} {signature rest : List UInt8} (hlen : signature.length = 4)
    (hne : readLE signature ≠ Client.headerSignature) (h : z.stream.Holds (signature ++ rest))
    (fuel : ℕ) : unzipFile env fuel z = some (some (decide (readLE signature = centralDirHeader)), { z with
      stream := z.stream.skip signature.length
      headerSignature := readLE signature }) := by
  have hread := reads_readNat z.headerSignature hlen _ _ h
  rw [unzipFile, hread]
  dsimp only
  rw [if_neg hne]

/-- The files are unpacked one after the other, up to one that is refused. -/
theorem unzipFiles_spec {files : List (ArchivedFile env)} (hscanned : ∀ f ∈ files, f.Scanned)
    {signature rest : List UInt8} (hlen : signature.length = 4)
    (hne : readLE signature ≠ Client.headerSignature) {z : ZIP} (hsized : Sized z.header)
    (h : z.stream.Holds (files.flatMap ArchivedFile.bytes ++ (signature ++ rest)))
    (hkeys : ∀ c ∈ z.contents, c.1 < z.localFileCount.toNat)
    (hcount : z.localFileCount.toNat + files.length < 2 ^ 16)
    (hposition : z.contentPosition ≤ z.stream.pos)
    (hmore : z.stream.pos + (files.flatMap ArchivedFile.bytes).length <
      z.contentPosition + z.contentLength)
    (hlt : z.stream.pos + (files.flatMap ArchivedFile.bytes).length < 2 ^ 64)
    {fuel : ℕ} (hfuel : (files.flatMap ArchivedFile.bytes).length < fuel) :
    if ∃ f ∈ files, f.method = .deflate ∧ ¬ f.ChecksumMatches then
      ∃ z', unzipFiles env fuel z = some (false, z')
    else ∃ z', unzipFiles env fuel z = some (decide (readLE signature = centralDirHeader), z') ∧
      z'.contents =
        z.contents ++ files.mapIdx fun i f => (z.localFileCount.toNat + i, f.extracted) := by
  induction files generalizing z fuel with
  | nil =>
    obtain ⟨fuel, rfl⟩ := Nat.exists_eq_succ_of_ne_zero (Nat.ne_zero_of_lt hfuel)
    rw [List.flatMap_nil, List.nil_append] at h
    rw [if_neg (by simp), unzipFiles, h.eof, if_neg Bool.false_ne_true,
      unzipFile_signature hlen hne h]
    exact ⟨_, rfl, (List.append_nil _).symm⟩
  | cons f files ih =>
    rw [List.forall_mem_cons] at hscanned
    rw [List.flatMap_cons, List.append_assoc] at h
    rw [List.flatMap_cons, List.length_append] at hmore hlt hfuel
    rw [List.length_cons] at hcount
    have hsize := f.length_data_lt
    obtain ⟨fuel, rfl⟩ : ∃ n, fuel = n + (f.data.length + 4) + 1 := ⟨fuel - (f.data.length + 5), by omega⟩
    have hfile := unzipFile_spec hsized f hscanned.1 h hkeys hposition (by omega) (by omega) fuel
    rw [unzipFiles, h.eof, if_neg Bool.false_ne_true]
    simp only [List.exists_mem_cons_iff]
    split at hfile
    next hwrong =>
      obtain ⟨z', hz'⟩ := hfile
      rw [if_pos (.inl hwrong), hz']
      exact ⟨z', rfl⟩
    next hright =>
      obtain ⟨header, compressed, hsized', hz'⟩ := hfile
      rw [hz']
      dsimp only
      have hnext : (z.localFileCount + 1).toNat = z.localFileCount.toNat + 1 := by
        exact Nat.mod_eq_of_lt (show z.localFileCount.toNat + 1 < 2 ^ 16 by omega)
      have hfuel' : (files.flatMap ArchivedFile.bytes).length < fuel + (f.data.length + 4) := by omega
      have hrest := ih hscanned.2 (z := { z with
          stream := z.stream.skip f.bytes.length
          headerSignature := Client.headerSignature
          header
          compressed
          contents := z.contents ++ [(z.localFileCount.toNat, f.extracted)]
          localFileCount := z.localFileCount + 1 }) hsized' h.skip
        (by
          dsimp only
          rw [hnext]
          intro c hc
          rcases List.mem_append.mp hc with hold | hnew
          · exact (hkeys c hold).trans (Nat.lt_succ_self _)
          · rw [List.mem_singleton.mp hnew]
            exact Nat.lt_succ_self _)
        (by
          dsimp only
          omega)
        (by
          dsimp only [skip_pos]
          omega)
        (by
          dsimp only [skip_pos]
          omega)
        (by
          dsimp only [skip_pos]
          omega)
        hfuel'
      dsimp only at hrest
      rw [hnext] at hrest
      by_cases hothers : ∃ f ∈ files, f.method = .deflate ∧ ¬ f.ChecksumMatches
      · rw [if_pos hothers] at hrest
        rw [if_pos (.inr hothers)]
        exact hrest
      · rw [if_neg hothers] at hrest
        rw [if_neg (not_or.mpr ⟨hright, hothers⟩)]
        obtain ⟨z', hz', hcontents⟩ := hrest
        refine ⟨z', hz', ?_⟩
        rw [hcontents, List.mapIdx_cons, List.append_assoc]
        simp [Nat.add_assoc, Nat.add_comm 1]

end ZIP

namespace Archive

variable {env}

theorem length_files_lt (files : List (ArchivedFile env)) :
    (files.flatMap ArchivedFile.bytes).length ≤ files.length * 2 ^ 33 := by
  induction files with
  | nil => exact Nat.zero_le _
  | cons f files ih =>
    have hone := f.length_bytes_lt
    rw [List.flatMap_cons, List.length_append, List.length_cons]
    omega

theorem length_directorySignature (a : Archive env) : a.directorySignature.length = 4 := by
  rw [directorySignature]
  split
  · rfl
  · exact length_writeLE 4 _

theorem readLE_directorySignature (a : Archive env) :
    readLE a.directorySignature = if a.files.isEmpty then 0x06054b50 else centralDirHeader := by
  rw [directorySignature]
  split
  · decide
  · exact readLE_writeLE (by decide)

/-- What `Unzip` makes of an archive. -/
theorem unzip_spec (a : Archive env) (hscanned : ∀ f ∈ a.files, f.Scanned) {fuel : ℕ}
    (hfuel : a.bytes.length < fuel) :
    if ∃ f ∈ a.files, f.method = .deflate ∧ ¬ f.ChecksumMatches then
      ∃ z, a.unzip fuel = some (false, z)
    else ∃ z, a.unzip fuel = some (!a.files.isEmpty, z) ∧
      z.contents = a.files.mapIdx fun i f => (i, f.extracted) := by
  have hlen : a.bytes.length =
      (a.files.flatMap ArchivedFile.bytes).length + 4 + a.directory.length := by
    rw [bytes, List.length_append, List.length_append, length_directorySignature]
  have hfiles := length_files_lt a.files
  have hcount := a.length_lt
  have hne : readLE a.directorySignature ≠ headerSignature := by
    rw [readLE_directorySignature]
    split <;> decide
  have hholds : (ZIP.ofStream a.bytes a.bytes.length 0).stream.Holds
      (a.files.flatMap ArchivedFile.bytes ++ (a.directorySignature ++ a.directory)) :=
    ⟨rfl, Nat.zero_le _, List.append_assoc ..⟩
  have hrun := ZIP.unzipFiles_spec hscanned a.length_directorySignature hne
    (z := ZIP.ofStream a.bytes a.bytes.length 0) ⟨rfl, rfl⟩ hholds nofun
    (by
      show 0 + a.files.length < 2 ^ 16
      omega)
    (Nat.le_refl _)
    (by
      show 0 + _ < 0 + a.bytes.length
      omega)
    (by
      show 0 + _ < 2 ^ 64
      omega)
    (hlen ▸ hfuel |>.trans' (by omega))
  have hcentral : decide (readLE a.directorySignature = centralDirHeader) = !a.files.isEmpty := by
    rw [readLE_directorySignature]
    split
    next hempty =>
      rw [hempty]
      decide
    next hnonempty =>
      rw [Bool.not_eq_true] at hnonempty
      rw [hnonempty]
      decide
  have hunzip : a.unzip fuel = ZIP.unzipFiles env fuel (ZIP.ofStream a.bytes a.bytes.length 0) := by
    have hseek := hholds.seekBeg (Nat.zero_le _)
    rw [unzip, ZIP.unzip, show (ZIP.ofStream a.bytes a.bytes.length 0).contentPosition = 0 from rfl,
      hseek]
    rfl
  have hnumbers : (ZIP.ofStream a.bytes a.bytes.length 0).contents ++ a.files.mapIdx (fun i f =>
      ((ZIP.ofStream a.bytes a.bytes.length 0).localFileCount.toNat + i, f.extracted)) =
        a.files.mapIdx fun i f => (i, f.extracted) := by
    simp [ZIP.ofStream]
  rw [hcentral, ← hunzip, hnumbers] at hrun
  exact hrun

/-- The signature of the data descriptor is not taken for content. -/
theorem extracted_eq_content_iff (f : ArchivedFile env) :
    f.extracted = f.content ↔ (f.hasDescriptor → f.method = .deflate) := by
  have hencodes := f.encodes
  rw [ArchivedFile.extracted]
  rcases hmethod : f.method
  · rw [hmethod] at hencodes
    have hdata : f.data = f.content := hencodes
    rcases f.hasDescriptor
    · simp
    · rw [if_pos ⟨rfl, rfl⟩, hdata]
      simp [descriptorSignature]
  · rw [if_neg fun hboth => nomatch hboth.1]
    simp

/-- One byte of a CRC-32. -/
def crcByte (crc : UInt32) (b : UInt8) : UInt32 :=
  (List.range 8).foldl (fun crc _ => if crc &&& 1 = 1 then (crc >>> 1) ^^^ 0xedb88320 else crc >>> 1)
    (crc ^^^ b.toUInt32)

/-- CRC-32, and deflated data of one stored block. -/
def exampleZIPEnv : ZIPEnv where
  inflate
    | 1 :: low :: high :: low' :: high' :: bs =>
      let len := low.toNat + 256 * high.toNat
      if low' = ~~~low ∧ high' = ~~~high ∧ len ≤ bs.length then some (bs.take len) else none
    | _ => none
  crc32 bs := writeLE 4 ((bs.foldl crcByte 0xffffffff) ^^^ 0xffffffff).toNat
  nextByte := 0

/-- A file with the content `a`. -/
def exampleFile (bitFlag : UInt16) (method : CompressionMethod) (crc32 : Block 4) :
    ArchivedFile exampleZIPEnv where
  version := ⟨[20, 0], rfl⟩
  bitFlag
  method
  lastMod := .const 0
  crc32
  notYetKnown := .const 0
  filename := .const 65
  extraField := []
  extraField_lt := by decide
  data := match method with
    | .stored => [97]
    | .deflate => [1, 1, 0, 0xfe, 0xff, 97]
  data_lt := by cases method <;> decide
  content := [97]
  content_lt := by decide
  encodes := by
    cases method
    · rfl
    · exact fun post => rfl

/-- The checksum of `a`. -/
def exampleCrc32 : Block 4 := ⟨[0x43, 0xbe, 0xb7, 0xe8], rfl⟩

/-- The header in the central directory of a file that starts at `offset`, behind its signature. -/
def exampleCentral (bitFlag : ℕ) (method : CompressionMethod) (compressedSize offset : ℕ) :
    List UInt8 :=
  [20, 0, 20, 0] ++ writeLE 2 bitFlag ++ writeLE 2 method.code ++ List.replicate 4 0 ++
    exampleCrc32.bytes ++ writeLE 4 compressedSize ++ writeLE 4 1 ++ writeLE 2 59 ++
    List.replicate 12 0 ++ writeLE 4 offset ++ List.replicate 59 65

/-- The end record of a central directory with `count` headers that starts at `offset`. -/
def exampleEnd (count offset : ℕ) : List UInt8 :=
  [0x50, 0x4b, 0x05, 0x06, 0, 0, 0, 0] ++ writeLE 2 count ++ writeLE 2 count ++
    writeLE 4 (105 * count) ++ writeLE 4 offset ++ [0, 0]

/-- A deflated file with a data descriptor, and a stored one without. -/
def exampleArchive : Archive exampleZIPEnv where
  files := [exampleFile 8 .deflate exampleCrc32, exampleFile 0 .stored exampleCrc32]
  length_lt := by decide
  directory := exampleCentral 8 .deflate 6 0 ++ writeLE 4 centralDirHeader ++
    exampleCentral 0 .stored 1 111 ++ exampleEnd 2 201

/-- A stored file with a data descriptor. -/
def storedDescriptorArchive : Archive exampleZIPEnv where
  files := [exampleFile 8 .stored exampleCrc32]
  length_lt := by decide
  directory := exampleCentral 8 .stored 1 0 ++ exampleEnd 1 106

end Archive

end Client
