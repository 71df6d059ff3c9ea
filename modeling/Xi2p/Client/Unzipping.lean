import Mathlib.Logic.Relation
import Xi2p.Client.DescriptorSearch

/-!
# The end of unzipping

The loops of `Unzip` and `FindDataDescriptor` end with the end of the file, but a seek clears the bit for
it, and on a stream that has failed nothing sets it again.

* `ZIP.Stalls`: a file in front of which a run goes on for ever.
* `ZIP.Stale`: the loop reads the same file again and again.
* `ZIP.terminates_iff`: `Unzip` ends unless it comes to a file that stalls.
-/

namespace Client

open Bytes InputStream

namespace ZIP

variable {env : ZIPEnv}

/-! ## Runs -/

/-- The state in front of the first file. -/
def start (zip : List UInt8) (len pos : ℕ) : ZIP :=
  let z := ofStream zip len pos
  { z with stream := (seekBeg z.contentPosition z.stream).2 }

/-- `Unzip` ends. -/
def Terminates (env : ZIPEnv) (zip : List UInt8) (len pos : ℕ) : Prop :=
  ∃ fuel, (unzip env fuel (ofStream zip len pos)).isSome

/-- The loop comes from one file to the next. -/
def Next (env : ZIPEnv) (z z' : ZIP) : Prop :=
  z.stream.eof = false ∧ ∃ fuel, unzipFile env fuel z = some (none, z')

/-- The states in front of the files that are read. -/
def Reached (env : ZIPEnv) (zip : List UInt8) (len pos : ℕ) : ZIP → Prop :=
  Relation.ReflTransGen (Next env) (start zip len pos)

/-- A number in the header of the file in front of which the stream stands. What is not there is left from
the file before. -/
def field (z : ZIP) (offset n old : ℕ) : ℕ := numberAt z.stream.bytes (z.stream.pos + offset) n old

/-- The header of the next file announces a data descriptor, and more than there is; or the stream has
failed without coming to its end, behind a file. -/
def Stalls (z : ZIP) : Prop :=
  (z.stream.good = true ∧ z.field 0 4 z.headerSignature = Client.headerSignature ∧
    z.field 26 2 z.header.localFilenameLength = 59 ∧
    hasDescriptorFlag (z.field 6 2 z.header.bitFlag) = true ∧
    z.stream.bytes.length < z.stream.pos + 89 + z.field 28 2 z.header.extraFieldLength) ∨
  (z.stream.eof = false ∧ z.stream.fail = true ∧ z.headerSignature = Client.headerSignature)

/-! ## The search for a data descriptor -/

/-- A search on a good stream comes to an end. -/
theorem exists_findDataDescriptor (env : ZIPEnv) {s : InputStream} (h : s.good = true) (nextInd : ℕ) :
    ∃ fuel result, findDataDescriptor env fuel nextInd s = some result := by
  induction hrest : s.rest.length generalizing s nextInd with
  | zero =>
    -- the byte that is not there ends the stream
    have hnil : s.rest = [] := List.length_eq_zero_iff.mp hrest
    have hread : (InputStream.read 1 s).2.eof = true := by
      rw [InputStream.read, if_pos h, hnil]
      rfl
    have hstop (n : ℕ) : findDataDescriptor env 1 n (InputStream.read 1 s).2 =
        some (false, (InputStream.read 1 s).2) := by
      rw [findDataDescriptor_succ, if_pos hread]
    refine ⟨2, ?_⟩
    rw [findDataDescriptor_succ, eof_of_good h, if_neg Bool.false_ne_true]
    split
    · split
      · exact ⟨_, rfl⟩
      · exact ⟨_, hstop _⟩
    · exact ⟨_, hstop _⟩
  | succ n ih =>
    obtain ⟨b, rest, hcons⟩ := List.exists_cons_of_length_eq_add_one hrest
    have hread : (InputStream.read 1 s).2 = s.skip 1 := by
      have heof := eof_of_good h
      have hfail := fail_of_good h
      rw [InputStream.read, if_pos h, hcons, InputStream.skip]
      obtain ⟨bytes, pos, eof, fail⟩ := s
      obtain rfl : eof = false := heof
      obtain rfl : fail = false := hfail
      rfl
    have hlater : (s.skip 1).rest.length = n := by
      have hdrop : (s.skip 1).rest = s.rest.drop 1 := by
        rw [InputStream.rest, InputStream.rest, List.drop_drop]
        rfl
      rw [hdrop, List.length_drop, hrest, Nat.add_sub_cancel]
    have hnext (m : ℕ) := ih (s := s.skip 1) h m hlater
    rw [← hread] at hnext
    by_cases hmatch : (InputStream.read 1 s).1.headD env.nextByte = descriptorSignature.getD nextInd 0
    · by_cases hlast : 4 ≤ nextInd + 1
      · refine ⟨1, (true, (InputStream.read 1 s).2), ?_⟩
        rw [findDataDescriptor_succ, eof_of_good h, if_neg Bool.false_ne_true, if_pos hmatch, if_pos hlast]
      · obtain ⟨fuel, result, hresult⟩ := hnext (nextInd + 1)
        refine ⟨fuel + 1, result, ?_⟩
        rw [findDataDescriptor_succ, eof_of_good h, if_neg Bool.false_ne_true, if_pos hmatch,
          if_neg hlast, hresult]
    · obtain ⟨fuel, result, hresult⟩ := hnext 0
      refine ⟨fuel + 1, result, ?_⟩
      rw [findDataDescriptor_succ, eof_of_good h, if_neg Bool.false_ne_true, if_neg hmatch, hresult]

/-- A search on a stream that has failed before its end does not. The byte in memory is compared again and
again. -/
theorem findDataDescriptor_eq_none {s : InputStream} (hfail : s.fail = true) (heof : s.eof = false)
    (fuel : ℕ) {nextInd : ℕ} (hind : nextInd = 0 ∨ nextInd = 1 ∧ env.nextByte = 0x50) :
    findDataDescriptor env fuel nextInd s = none := by
  induction fuel generalizing nextInd with
  | zero => rfl
  | succ fuel ih =>
    rw [findDataDescriptor_succ, heof, if_neg Bool.false_ne_true, read_of_fail hfail, List.headD_nil]
    rcases hind with rfl | ⟨rfl, hbyte⟩
    · split
      next hmatch =>
        rw [if_neg (by decide)]
        exact ih (.inr ⟨rfl, hmatch⟩)
      next => exact ih (.inl rfl)
    · rw [if_neg (by rw [hbyte]; decide)]
      exact ih (.inl rfl)

theorem bytes_read (n : ℕ) (s : InputStream) : (InputStream.read n s).2.bytes = s.bytes := by
  rw [InputStream.read]
  split <;> rfl

theorem bytes_findDataDescriptor {fuel nextInd : ℕ} {s s' : InputStream} {found : Bool}
    (h : findDataDescriptor env fuel nextInd s = some (found, s')) : s'.bytes = s.bytes := by
  induction fuel generalizing nextInd s with
  | zero => cases h
  | succ fuel ih =>
    rw [findDataDescriptor_succ] at h
    split at h
    · obtain ⟨-, rfl⟩ := Prod.mk.inj (Option.some.inj h)
      rfl
    · rw [← bytes_read 1 s]
      split at h
      · split at h
        · obtain ⟨-, rfl⟩ := Prod.mk.inj (Option.some.inj h)
          rfl
        · exact ih h
      · exact ih h

/-! ## Headers at positions -/

/-- What the members of a header can hold. -/
structure Fits (h : LocalHeader) : Prop where
  sized : Sized h
  bitFlag : h.bitFlag < 256 ^ 2
  compressionMethod : h.compressionMethod < 256 ^ 2
  compressedSize : h.compressedSize < 256 ^ 4
  uncompressedSize : h.uncompressedSize < 256 ^ 4
  localFilenameLength : h.localFilenameLength < 256 ^ 2
  extraFieldLength : h.extraFieldLength < 256 ^ 2

theorem fits_default : Fits {} := by
  refine ⟨⟨rfl, rfl⟩, ?_, ?_, ?_, ?_, ?_, ?_⟩ <;> decide

/-- What `readSizes` gives at a position. -/
def sizesAt (bytes : List UInt8) (p : ℕ) (old : LocalHeader) : LocalHeader :=
  { old with
    bitFlag := numberAt bytes (p + 2) 2 old.bitFlag
    compressionMethod := numberAt bytes (p + 4) 2 old.compressionMethod
    crc32 := overlay bytes (p + 10) old.crc32
    compressedSize := numberAt bytes (p + 14) 4 old.compressedSize
    uncompressedSize := numberAt bytes (p + 18) 4 old.uncompressedSize
    localFilenameLength := numberAt bytes (p + 22) 2 old.localFilenameLength }

/-- What `readNames` gives at a position. -/
def namesAt (bytes : List UInt8) (p : ℕ) (old : LocalHeader) : LocalHeader :=
  { old with
    extraFieldLength := numberAt bytes p 2 old.extraFieldLength
    localFilename := overlay bytes (p + 2) (old.localFilename.take old.localFilenameLength) ++
      old.localFilename.drop old.localFilenameLength }

variable {bytes : List UInt8} {p : ℕ} {old : LocalHeader}

theorem givesAt_readSizes (h : Fits old) (bytes : List UInt8) (p : ℕ) :
    GivesAt bytes p (readSizes old) 24 (sizesAt bytes p old) := by
  have hcrc := givesAt_readOver bytes (p + 2 + 2 + 2 + 4) old.crc32
  rw [h.sized.crc32] at hcrc
  show GivesAt bytes p (readSizes old) (2 + (2 + (2 + (4 + (4 + (4 + (4 + 2))))))) _
  rw [readSizes]
  refine (givesAt_seekCur bytes p 2).bind ?_
  refine (givesAt_readNat bytes (p + 2) 2 old.bitFlag).bind ?_
  refine (givesAt_readNat bytes (p + 2 + 2) 2 old.compressionMethod).bind ?_
  refine (givesAt_seekCur bytes (p + 2 + 2 + 2) 4).bind (hcrc.bind ?_)
  refine (givesAt_readNat bytes (p + 2 + 2 + 2 + 4 + 4) 4 old.compressedSize).bind ?_
  refine (givesAt_readNat bytes (p + 2 + 2 + 2 + 4 + 4 + 4) 4 old.uncompressedSize).bind ?_
  exact (givesAt_readNat bytes (p + 2 + 2 + 2 + 4 + 4 + 4 + 4) 2 old.localFilenameLength).bind_pure _

theorem givesAt_readNames (h : Fits old) (hlen : old.localFilenameLength = 59) (bytes : List UInt8)
    (p : ℕ) : GivesAt bytes p (readNames old)
      (61 + (namesAt bytes p old).extraFieldLength) (namesAt bytes p old) := by
  have hname := givesAt_readOver bytes (p + 2) (old.localFilename.take old.localFilenameLength)
  have htake : (old.localFilename.take old.localFilenameLength).length = 59 := by
    rw [List.length_take, h.sized.localFilename, hlen]
    rfl
  rw [htake] at hname
  have hskip := givesAt_seekCur bytes (p + 2 + 59) (numberAt bytes p 2 old.extraFieldLength)
  rw [show 61 + (namesAt bytes p old).extraFieldLength =
    2 + (59 + numberAt bytes p 2 old.extraFieldLength) by rw [← Nat.add_assoc]; rfl, readNames]
  exact (givesAt_readNat bytes p 2 old.extraFieldLength).bind (hname.bind (hskip.bind_pure _))

theorem fits_sizesAt (h : Fits old) (bytes : List UInt8) (p : ℕ) : Fits (sizesAt bytes p old) := by
  refine ⟨⟨?_, h.sized.localFilename⟩, numberAt_lt .., numberAt_lt .., numberAt_lt .., numberAt_lt ..,
    numberAt_lt .., h.extraFieldLength⟩
  rw [sizesAt, length_overlay, h.sized.crc32]

theorem fits_namesAt (h : Fits old) (bytes : List UInt8) (p : ℕ) : Fits (namesAt bytes p old) := by
  refine ⟨⟨h.sized.crc32, ?_⟩, h.bitFlag, h.compressionMethod, h.compressedSize, h.uncompressedSize,
    h.localFilenameLength, numberAt_lt ..⟩
  rw [namesAt, List.length_append, length_overlay, ← List.length_append, List.take_append_drop]
  exact h.sized.localFilename

theorem numberAt_of_le {bytes : List UInt8} {p n v : ℕ} (hle : bytes.length ≤ p) (hlt : v < 256 ^ n) :
    numberAt bytes p n v = v := by
  rw [numberAt, overlay_of_le hle, readLE_writeLE hlt]

/-- Behind the end, the header of the file before is left. -/
theorem sizesAt_of_le (h : Fits old) (hle : bytes.length ≤ p) : sizesAt bytes p old = old := by
  rw [sizesAt, numberAt_of_le (by omega) h.bitFlag, numberAt_of_le (by omega) h.compressionMethod,
    overlay_of_le (by omega), numberAt_of_le (by omega) h.compressedSize,
    numberAt_of_le (by omega) h.uncompressedSize, numberAt_of_le (by omega) h.localFilenameLength]

theorem namesAt_of_le (h : Fits old) (hle : bytes.length ≤ p) : namesAt bytes p old = old := by
  rw [namesAt, numberAt_of_le hle h.extraFieldLength, overlay_of_le (by omega), List.take_append_drop]

theorem eof_seekBeg (n : ℕ) (s : InputStream) : (seekBeg n s).2.eof = false := by
  rw [seekBeg]
  dsimp only
  split
  · rfl
  · split <;> rfl

/-! ## One file -/

/-- The part of `PrepareLocalFile` for a data descriptor. -/
def findSizes (env : ZIPEnv) (fuel : ℕ) (z : ZIP) : Option (Bool × ZIP) :=
  if hasDescriptorFlag z.header.bitFlag then
    match findDataDescriptor env fuel 0 (tellg z.stream).2 with
    | none => none
    | some (false, stream) => some (false, { z with stream })
    | some (true, stream) =>
      some (true, { z with
        stream := (seekBeg (tellg z.stream).1 (readDescriptor z.header stream).2).2
        header := (readDescriptor z.header stream).1 })
  else some (true, z)

/-- What `Unzip` does with a file that has been prepared. -/
def finishFile (env : ZIPEnv) (z : ZIP) : Option Bool × ZIP :=
  match decompressLocalFile env z with
  | (false, z) => (some false, z)
  | (true, z) =>
    let stream := if hasDescriptorFlag z.header.bitFlag then (seekCur 12 z.stream).2 else z.stream
    let z' := { z with stream := (tellg stream).2 }
    if z.contentLength ≤ ((tellg stream).1 + 2 ^ 64 - z.contentPosition) % 2 ^ 64 then (some true, z')
    else (none, z')

/-- What `Unzip` does with a file whose names have been read. -/
def proceedFile (env : ZIPEnv) (fuel : ℕ) (z : ZIP) : Option (Option Bool × ZIP) :=
  match findSizes env fuel z with
  | none => none
  | some (false, z) => some (some false, z)
  | some (true, z) => some (finishFile env z)

theorem prepareLocalFile_eq (env : ZIPEnv) (fuel : ℕ) (z : ZIP) :
    prepareLocalFile env fuel z =
      let sizes := readSizes z.header z.stream
      let names := readNames sizes.1 sizes.2
      if sizes.1.localFilenameLength ≠ 59 then some (false, { z with stream := sizes.2, header := sizes.1 })
      else findSizes env fuel { z with stream := names.2, header := names.1 } := by
  rw [prepareLocalFile]
  generalize readSizes z.header z.stream = sizes
  obtain ⟨header, stream⟩ := sizes
  dsimp only
  generalize readNames header stream = names
  obtain ⟨header', stream'⟩ := names
  rw [findSizes]
  dsimp only
  generalize tellg stream' = position
  obtain ⟨pos, stream''⟩ := position
  dsimp only
  generalize findDataDescriptor env fuel 0 stream'' = found
  rcases found with _ | ⟨_ | _, stream⟩ <;> rfl

theorem unzipFile_eq (env : ZIPEnv) (fuel : ℕ) (z : ZIP) :
    unzipFile env fuel z =
      let signature := readNat 4 z.headerSignature z.stream
      let z' : ZIP := { z with stream := signature.2, headerSignature := signature.1 }
      let sizes := readSizes z'.header z'.stream
      let names := readNames sizes.1 sizes.2
      if signature.1 = Client.headerSignature then
        if sizes.1.localFilenameLength ≠ 59 then
          some (some false, { z' with stream := sizes.2, header := sizes.1 })
        else proceedFile env fuel { z' with stream := names.2, header := names.1 }
      else some (some (signature.1 = centralDirHeader), z') := by
  rw [unzipFile]
  generalize readNat 4 z.headerSignature z.stream = read
  obtain ⟨signature, stream⟩ := read
  dsimp only
  rw [prepareLocalFile_eq]
  dsimp only
  split
  · by_cases hlen : (readSizes z.header stream).1.localFilenameLength ≠ 59
    · rw [if_pos hlen, if_pos hlen]
    · rw [if_neg hlen, if_neg hlen, proceedFile]
      generalize findSizes env fuel _ = found
      rcases found with _ | ⟨_ | _, z'⟩
      · rfl
      · rfl
      · dsimp only
        rw [finishFile]
        generalize decompressLocalFile env z' = decompressed
        rcases decompressed with ⟨_ | _, z''⟩
        · rfl
        · dsimp only
          generalize tellg _ = position
          obtain ⟨pos, stream'⟩ := position
          dsimp only
          split <;> rfl
  · rfl

/-- The header that is read at a position. -/
def headerAt (z : ZIP) (bytes : List UInt8) (p : ℕ) : LocalHeader :=
  namesAt bytes (p + 28) (sizesAt bytes (p + 4) z.header)

variable {z z' : ZIP}

/-- A file that is not one ends the loop. -/
theorem unzipFile_of_ne (env : ZIPEnv) (hat : At bytes p z.stream) (hfits : Fits z.header)
    (hne : ¬ (numberAt bytes p 4 z.headerSignature = Client.headerSignature ∧
      numberAt bytes (p + 26) 2 z.header.localFilenameLength = 59)) :
    ∃ (result : Bool) (z' : ZIP), ∀ fuel, unzipFile env fuel z = some (some result, z') := by
  obtain ⟨hsignature, hat⟩ := givesAt_readNat bytes p 4 z.headerSignature _ hat
  obtain ⟨hsizes, -⟩ := givesAt_readSizes hfits bytes (p + 4) _ hat
  simp only [unzipFile_eq, hsignature, hsizes]
  split
  next heq =>
    have hlen : (sizesAt bytes (p + 4) z.header).localFilenameLength ≠ 59 := fun hlen => hne ⟨heq, hlen⟩
    exact ⟨false, _, fun _ => if_pos hlen⟩
  next => exact ⟨_, _, fun _ => rfl⟩

/-- A file whose header can be read. -/
theorem unzipFile_of_eq (env : ZIPEnv) (hat : At bytes p z.stream) (hfits : Fits z.header)
    (hsignature : numberAt bytes p 4 z.headerSignature = Client.headerSignature)
    (hlen : numberAt bytes (p + 26) 2 z.header.localFilenameLength = 59) :
    ∃ stream, At bytes (p + 89 + (z.headerAt bytes p).extraFieldLength) stream ∧ stream.eof = false ∧
      ∀ fuel, unzipFile env fuel z = proceedFile env fuel
        { z with stream, header := z.headerAt bytes p, headerSignature := Client.headerSignature } := by
  obtain ⟨hnumber, hat⟩ := givesAt_readNat bytes p 4 z.headerSignature _ hat
  obtain ⟨hsizes, hat⟩ := givesAt_readSizes hfits bytes (p + 4) _ hat
  obtain ⟨hnames, hat⟩ := givesAt_readNames (fits_sizesAt hfits bytes (p + 4)) hlen bytes (p + 28) _ hat
  rw [show p + 28 + (61 + (namesAt bytes (p + 28) (sizesAt bytes (p + 4) z.header)).extraFieldLength) =
    p + 89 + (z.headerAt bytes p).extraFieldLength by rw [headerAt]; omega] at hat
  refine ⟨_, hat, eof_seekBeg _ _, fun fuel => ?_⟩
  simp only [unzipFile_eq, hnumber, hsizes, if_pos hsignature]
  rw [if_neg fun hne => hne hlen, hnames, hsignature]
  rfl

/-! ## Where a file leaves the stream -/

/-- The stream has not failed and stands at `q` or behind, or it has failed. -/
structure Behind (bytes : List UInt8) (q : ℕ) (s : InputStream) : Prop where
  bytes_eq : s.bytes = bytes
  state : (s.good = true ∧ q ≤ s.pos ∧ s.pos ≤ bytes.length) ∨ s.fail = true

variable {q : ℕ} {s : InputStream}

/-- A stream behind a position is at some position, or it has failed on the way to one. -/
theorem Behind.exists_at (h : Behind bytes q s) : ∃ p, q ≤ p ∧ At bytes p s := by
  rcases h.state with ⟨hgood, hle, hend⟩ | hfail
  · exact ⟨s.pos, hle, h.bytes_eq, .inl ⟨hgood, rfl, hend⟩⟩
  · exact ⟨q + bytes.length + 1, by omega, h.bytes_eq, .inr ⟨hfail, by omega⟩⟩

theorem At.behind (h : At bytes p s) (hle : q ≤ p) : Behind bytes q s := by
  refine ⟨h.bytes_eq, ?_⟩
  rcases h.state with ⟨hgood, rfl, hend⟩ | ⟨hfail, -⟩
  · exact .inl ⟨hgood, hle, hend⟩
  · exact .inr hfail

theorem Behind.readOver (h : Behind bytes q s) (old : List UInt8) :
    Behind bytes q (InputStream.readOver old s).2 := by
  obtain ⟨p, hle, hat⟩ := h.exists_at
  exact At.behind (givesAt_readOver bytes p old s hat).2 (by omega)

theorem Behind.seekCur (h : Behind bytes q s) (n : ℕ) : Behind bytes q (InputStream.seekCur n s).2 := by
  obtain ⟨p, hle, hat⟩ := h.exists_at
  exact At.behind (hat.seekCur n) (by omega)

theorem Behind.tellg (h : Behind bytes q s) : Behind bytes q (InputStream.tellg s).2 := by
  rw [InputStream.tellg]
  split
  · exact h
  · exact ⟨h.bytes_eq, .inr rfl⟩

/-- Behind a data descriptor, the stream goes back, or it has failed. -/
theorem behind_seekBeg (hbytes : s.bytes = bytes) (hle : q ≤ bytes.length) :
    Behind bytes q (seekBeg q s).2 := by
  cases hfail : s.fail with
  | true =>
    rw [seekBeg_of_fail hfail]
    exact ⟨hbytes, .inr hfail⟩
  | false =>
    rw [seekBeg]
    dsimp only
    rw [hfail, if_neg Bool.false_ne_true, if_pos (hbytes ▸ hle)]
    exact ⟨hbytes, .inl ⟨by simp [InputStream.good], le_rfl, hle⟩⟩

theorem bytes_readOver (old : List UInt8) (s : InputStream) :
    (InputStream.readOver old s).2.bytes = s.bytes := bytes_read old.length s

theorem bytes_readDescriptor (old : LocalHeader) (s : InputStream) :
    (readDescriptor old s).2.bytes = s.bytes := by
  show (InputStream.read _ (InputStream.read _ (InputStream.read _ s).2).2).2.bytes = s.bytes
  rw [bytes_read, bytes_read, bytes_read]

theorem length_readOver (old : List UInt8) (s : InputStream) :
    (InputStream.readOver old s).1.length = old.length := by
  show ((InputStream.read _ s).1 ++ old.drop (InputStream.read _ s).1.length).length = old.length
  have hread : (InputStream.read old.length s).1.length ≤ old.length := by
    rw [InputStream.read]
    split
    · exact List.length_take_le _ _
    · exact Nat.zero_le _
  rw [List.length_append, List.length_drop]
  omega

theorem readNat_lt (n v : ℕ) (s : InputStream) : (readNat n v s).1 < 256 ^ n := by
  have hlt := readLE_lt (InputStream.readOver (writeLE n v) s).1
  rwa [length_readOver, length_writeLE] at hlt

theorem fits_readDescriptor (h : Fits old) (s : InputStream) : Fits (readDescriptor old s).1 := by
  refine ⟨⟨?_, h.sized.localFilename⟩, h.bitFlag, h.compressionMethod, ?_, readNat_lt ..,
    h.localFilenameLength, h.extraFieldLength⟩
  · exact (length_readOver ..).trans h.sized.crc32
  · exact Nat.mod_lt _ (by decide)

/-! ## Stale files -/

/-- `DecompressLocalFile` is content with what has been read. -/
def Redoes (env : ZIPEnv) (header : LocalHeader) (compressed : List UInt8) : Prop :=
  header.compressionMethod = 0 ∨
    header.compressionMethod = 8 ∧ compressed.length = header.compressedSize ∧
      ∃ retrievable, env.inflate compressed = some retrievable ∧
        retrievable.length ≤ header.uncompressedSize ∧
        header.crc32 = env.crc32 (resize retrievable header.uncompressedSize)

/-- What `DecompressLocalFile` leaves alone. -/
structure SameFile (z z' : ZIP) : Prop where
  header : z'.header = z.header
  headerSignature : z'.headerSignature = z.headerSignature
  contentPosition : z'.contentPosition = z.contentPosition
  contentLength : z'.contentLength = z.contentLength

/-- A file that has been decompressed can be decompressed once more. -/
theorem of_decompressLocalFile (h : decompressLocalFile env z = (true, z')) :
    SameFile z z' ∧ Redoes env z.header z'.compressed ∧
      z'.stream = (InputStream.readOver (resize z.compressed z.header.compressedSize) z.stream).2 := by
  have hlen := length_readOver (resize z.compressed z.header.compressedSize) z.stream
  rw [length_resize] at hlen
  rw [decompressLocalFile] at h
  generalize InputStream.readOver (resize z.compressed z.header.compressedSize) z.stream = read at h hlen ⊢
  obtain ⟨compressed, stream⟩ := read
  dsimp only at h hlen ⊢
  split at h
  next hmethod =>
    split at h
    · cases h
    next retrievable hinflate =>
      split at h
      next hsize =>
        split at h
        next hcrc =>
          obtain ⟨-, rfl⟩ := Prod.mk.inj h
          exact ⟨⟨rfl, rfl, rfl, rfl⟩, .inr ⟨hmethod, hlen, retrievable, hinflate, hsize, hcrc⟩, rfl⟩
        · cases h
      · cases h
  next =>
    split at h
    next hmethod =>
      obtain ⟨-, rfl⟩ := Prod.mk.inj h
      exact ⟨⟨rfl, rfl, rfl, rfl⟩, .inl hmethod, rfl⟩
    · cases h

/-- What has failed is decompressed from memory. -/
theorem decompressLocalFile_of_fail (env : ZIPEnv) (hfail : z.stream.fail = true)
    (hredoes : Redoes env z.header z.compressed) :
    ∃ z', decompressLocalFile env z = (true, z') ∧ z'.stream = z.stream := by
  have hread : InputStream.readOver (resize z.compressed z.header.compressedSize) z.stream =
      (resize z.compressed z.header.compressedSize, z.stream) := by
    show ((InputStream.read _ z.stream).1 ++ List.drop (InputStream.read _ z.stream).1.length _,
      (InputStream.read _ z.stream).2) = _
    rw [read_of_fail hfail]
    rfl
  rw [decompressLocalFile, hread]
  dsimp only
  rcases hredoes with hmethod | ⟨hmethod, hlen, retrievable, hinflate, hsize, hcrc⟩
  · rw [if_neg (by rw [hmethod]; decide), if_pos hmethod]
    exact ⟨_, rfl, rfl⟩
  · rw [← hlen, resize_length, if_pos hmethod, hinflate]
    dsimp only
    rw [if_pos hsize, if_pos hcrc]
    exact ⟨_, rfl, rfl⟩

/-- The loop reads the same file again and again. -/
structure Stale (env : ZIPEnv) (z : ZIP) : Prop where
  eof : z.stream.eof = false
  fail : z.stream.fail = true
  headerSignature : z.headerSignature = Client.headerSignature
  fits : Fits z.header
  localFilenameLength : z.header.localFilenameLength = 59
  redoes : hasDescriptorFlag z.header.bitFlag = true ∨ Redoes env z.header z.compressed
  continues : ¬ z.contentLength ≤ (2 ^ 64 - 1 + 2 ^ 64 - z.contentPosition) % 2 ^ 64

theorem tellg_of_fail (h : s.fail = true) : tellg s = (2 ^ 64 - 1, s) := by
  rw [tellg, if_neg (good_eq_false h)]
  obtain ⟨bytes, pos, eof, fail⟩ := s
  obtain rfl : fail = true := h
  rfl

/-- Why a file is not the last one. -/
theorem of_finishFile (h : finishFile env z = (none, z')) :
    SameFile z z' ∧ Redoes env z.header z'.compressed ∧
      (∀ {bytes q}, Behind bytes q z.stream → Behind bytes q z'.stream) ∧
      (z'.stream.fail = true → ¬ z.contentLength ≤ (2 ^ 64 - 1 + 2 ^ 64 - z.contentPosition) % 2 ^ 64) := by
  rw [finishFile] at h
  generalize hd : decompressLocalFile env z = decompressed at h
  rcases decompressed with ⟨_ | _, z₁⟩
  · cases h
  obtain ⟨hsame, hredoes, hstream⟩ := of_decompressLocalFile hd
  dsimp only at h
  generalize hs : (if hasDescriptorFlag z₁.header.bitFlag = true then (seekCur 12 z₁.stream).2
    else z₁.stream) = stream at h
  split at h
  · cases h
  next hmore =>
    obtain ⟨-, rfl⟩ := Prod.mk.inj h
    refine ⟨⟨hsame.header, hsame.headerSignature, hsame.contentPosition, hsame.contentLength⟩, hredoes,
      fun hbehind => ?_, fun hfail => ?_⟩
    · refine Behind.tellg ?_
      have hread := hbehind.readOver (resize z.compressed z.header.compressedSize)
      rw [← hstream] at hread
      rw [← hs]
      split
      · exact hread.seekCur 12
      · exact hread
    · rw [hsame.contentLength, hsame.contentPosition] at hmore
      by_cases hgood : stream.good = true
      · dsimp only at hfail
        rw [tellg, if_pos hgood] at hfail
        exact absurd hgood (good_eq_false hfail)
      · rwa [tellg, if_neg hgood] at hmore

/-! ## More fuel -/

theorem findSizes_mono {fuel : ℕ} {result : Bool × ZIP} (h : findSizes env fuel z = some result)
    (more : ℕ) : findSizes env (fuel + more) z = some result := by
  rw [findSizes] at h ⊢
  split
  next hflag =>
    rw [if_pos hflag] at h
    cases hfind : findDataDescriptor env fuel 0 (tellg z.stream).2 with
    | none =>
      rw [hfind] at h
      cases h
    | some found =>
      rw [findDataDescriptor_mono hfind]
      rwa [hfind] at h
  next hflag => rwa [if_neg hflag] at h

theorem proceedFile_mono {fuel : ℕ} {result : Option Bool × ZIP}
    (h : proceedFile env fuel z = some result) (more : ℕ) :
    proceedFile env (fuel + more) z = some result := by
  rw [proceedFile] at h ⊢
  cases hfind : findSizes env fuel z with
  | none =>
    rw [hfind] at h
    cases h
  | some found =>
    rw [findSizes_mono hfind]
    rwa [hfind] at h

theorem unzipFile_mono {fuel : ℕ} {result : Option Bool × ZIP}
    (h : unzipFile env fuel z = some result) (more : ℕ) :
    unzipFile env (fuel + more) z = some result := by
  rw [unzipFile_eq] at h ⊢
  dsimp only at h ⊢
  split
  next hsignature =>
    rw [if_pos hsignature] at h
    split
    next hlen => rwa [if_pos hlen] at h
    next hlen =>
      rw [if_neg hlen] at h
      exact proceedFile_mono h more
  next hsignature => rwa [if_neg hsignature] at h

theorem unzipFiles_succ (env : ZIPEnv) (fuel : ℕ) (z : ZIP) :
    unzipFiles env (fuel + 1) z =
      if z.stream.eof then some (true, z)
      else
        match unzipFile env fuel z with
        | none => none
        | some (some result, z) => some (result, z)
        | some (none, z) => unzipFiles env fuel z := rfl

theorem unzipFiles_mono {fuel : ℕ} {result : Bool × ZIP} (h : unzipFiles env fuel z = some result)
    (more : ℕ) : unzipFiles env (fuel + more) z = some result := by
  induction fuel generalizing z with
  | zero => cases h
  | succ fuel ih =>
    rw [Nat.add_right_comm, unzipFiles_succ]
    rw [unzipFiles_succ] at h
    split
    next heof => rwa [if_pos heof] at h
    next heof =>
      rw [if_neg heof] at h
      cases hfile : unzipFile env fuel z with
      | none =>
        rw [hfile] at h
        cases h
      | some file =>
        rw [unzipFile_mono hfile]
        rw [hfile] at h
        obtain ⟨_ | last, z₁⟩ := file
        · exact ih h
        · exact h

/-! ## Going on for ever -/

/-- A loop over files that does not end. -/
def Diverges (env : ZIPEnv) (z : ZIP) : Prop := ∀ fuel, unzipFiles env fuel z = none

theorem diverges_of_unzipFile (heof : z.stream.eof = false) (h : ∀ fuel, unzipFile env fuel z = none) :
    Diverges env z := by
  intro fuel
  cases fuel with
  | zero => rfl
  | succ fuel => rw [unzipFiles_succ, heof, if_neg Bool.false_ne_true, h]

/-- A loop that comes to a file from which on it does not end. -/
theorem Diverges.of_next (h : Diverges env z') (hnext : Next env z z') : Diverges env z := by
  obtain ⟨heof, enough, hfile⟩ := hnext
  intro fuel
  cases fuel with
  | zero => rfl
  | succ fuel =>
    rw [unzipFiles_succ, heof, if_neg Bool.false_ne_true]
    cases hless : unzipFile env fuel z with
    | none => rfl
    | some file =>
      have hmore := unzipFile_mono hless enough
      rw [Nat.add_comm, unzipFile_mono hfile] at hmore
      obtain rfl := Option.some.inj hmore
      exact h fuel

theorem Diverges.of_reflTransGen (h : Diverges env z') (hreached : Relation.ReflTransGen (Next env) z z') :
    Diverges env z := by
  induction hreached using Relation.ReflTransGen.head_induction_on with
  | refl => exact h
  | head hnext _ ih => exact ih.of_next hnext

theorem Diverges.of_reached {zip : List UInt8} {len pos : ℕ} (h : Diverges env z)
    (hreached : Reached env zip len pos z) : ¬ Terminates env zip len pos := by
  have hstart : Diverges env (start zip len pos) := h.of_reflTransGen hreached
  rintro ⟨fuel, hsome⟩
  have hnone : unzip env fuel (ofStream zip len pos) = none := hstart fuel
  rw [hnone] at hsome
  cases hsome

/-- The search for a data descriptor on a stream that has failed. -/
theorem proceedFile_eq_none (hfail : z.stream.fail = true) (heof : z.stream.eof = false)
    (hflag : hasDescriptorFlag z.header.bitFlag = true) (fuel : ℕ) : proceedFile env fuel z = none := by
  rw [proceedFile, findSizes, if_pos hflag, tellg_of_fail hfail,
    findDataDescriptor_eq_none hfail heof fuel (.inl rfl)]

/-- A stale file is followed by itself. -/
theorem Stale.unzipFile (h : Stale env z) (fuel : ℕ) :
    unzipFile env fuel z = none ∨ ∃ z', unzipFile env fuel z = some (none, z') ∧ Stale env z' := by
  set bytes := z.stream.bytes with hbytes
  have hat : At bytes (bytes.length + 1) z.stream := ⟨rfl, .inr ⟨h.fail, Nat.lt_succ_self _⟩⟩
  have hsignature : numberAt bytes (bytes.length + 1) 4 z.headerSignature = Client.headerSignature := by
    rw [numberAt_of_le (by omega) (by rw [h.headerSignature]; decide), h.headerSignature]
  have hlen : numberAt bytes (bytes.length + 1 + 26) 2 z.header.localFilenameLength = 59 := by
    rw [numberAt_of_le (by omega) h.fits.localFilenameLength, h.localFilenameLength]
  have hheader : z.headerAt bytes (bytes.length + 1) = z.header := by
    rw [headerAt, sizesAt_of_le h.fits (by omega), namesAt_of_le h.fits (by omega)]
  obtain ⟨stream, hstream, heof, hfile⟩ := unzipFile_of_eq env hat h.fits hsignature hlen
  have hfail : stream.fail = true := by
    rcases hstream.state with ⟨-, -, hle⟩ | ⟨hfail, -⟩
    · omega
    · exact hfail
  rw [hfile, hheader]
  by_cases hflag : hasDescriptorFlag z.header.bitFlag = true
  · exact .inl (proceedFile_eq_none (by exact hfail) (by exact heof) (by exact hflag) fuel)
  · obtain ⟨z₁, hd, hs⟩ := decompressLocalFile_of_fail env
      (z := { z with stream, headerSignature := Client.headerSignature }) hfail (h.redoes.resolve_left hflag)
    replace hs : z₁.stream = stream := hs
    subst hs
    obtain ⟨hsame, hredoes, -⟩ := of_decompressLocalFile hd
    have hflag₁ : ¬ hasDescriptorFlag z₁.header.bitFlag = true := by rwa [hsame.header]
    have hmore : ¬ z₁.contentLength ≤ (2 ^ 64 - 1 + 2 ^ 64 - z₁.contentPosition) % 2 ^ 64 := by
      rw [hsame.contentLength, hsame.contentPosition]
      exact h.continues
    refine .inr ⟨z₁, ?_, ?_⟩
    · rw [proceedFile, findSizes, if_neg hflag]
      dsimp only
      rw [finishFile, hd]
      dsimp only
      rw [if_neg hflag₁, tellg_of_fail hfail, if_neg hmore]
    · refine ⟨heof, hfail, hsame.headerSignature, ?_, ?_, .inr ?_, hmore⟩
      · rw [hsame.header]
        exact h.fits
      · rw [hsame.header]
        exact h.localFilenameLength
      · rw [hsame.header]
        exact hredoes

theorem Stale.diverges (h : Stale env z) : Diverges env z := by
  intro fuel
  induction fuel generalizing z with
  | zero => rfl
  | succ fuel ih =>
    rw [unzipFiles_succ, h.eof, if_neg Bool.false_ne_true]
    rcases h.unzipFile fuel with hnone | ⟨z', hnext, hstale⟩
    · rw [hnone]
    · rw [hnext]
      exact ih hstale

/-! ## In front of a file -/

/-- What holds in front of every file that is read. -/
structure Ready (env : ZIPEnv) (zip : List UInt8) (z : ZIP) : Prop where
  behind : Behind zip 0 z.stream
  fits : Fits z.header
  headerSignature : z.headerSignature = 0 ∨ z.headerSignature = Client.headerSignature
  stale : z.stream.eof = false → z.stream.fail = true →
    z.headerSignature = Client.headerSignature → Stale env z

theorem ready_start (env : ZIPEnv) (zip : List UInt8) (len pos : ℕ) :
    Ready env zip (start zip len pos) := by
  have hseek : seekBeg pos { bytes := zip } =
      ((), if pos ≤ zip.length then { bytes := zip, pos } else { bytes := zip, fail := true }) :=
    seekBeg_of_good rfl pos
  have hstream : (start zip len pos).stream =
      if pos ≤ zip.length then { bytes := zip, pos } else { bytes := zip, fail := true } :=
    congrArg Prod.snd hseek
  have hzero : ¬ (0 : ℕ) = Client.headerSignature := by decide
  refine ⟨?_, fits_default, .inl rfl, fun _ _ hsignature => absurd hsignature hzero⟩
  rw [hstream]
  split
  next hle => exact ⟨rfl, .inl ⟨rfl, Nat.zero_le _, hle⟩⟩
  next => exact ⟨rfl, .inr rfl⟩

variable {zip : List UInt8}

/-- A file whose data descriptor has been looked for. -/
theorem of_findSizes {fuel : ℕ} (h : findSizes env fuel z = some (true, z')) (hat : At zip q z.stream)
    (heof : z.stream.eof = false) (hfits : Fits z.header) :
    Behind zip q z'.stream ∧ Fits z'.header ∧ z'.headerSignature = z.headerSignature ∧
      z'.header.localFilenameLength = z.header.localFilenameLength := by
  rw [findSizes] at h
  split at h
  next hflag =>
    rcases hat.state with ⟨hgood, rfl, hle⟩ | ⟨hfail, -⟩
    · have htell : tellg z.stream = (z.stream.pos, z.stream) := if_pos hgood
      rw [htell] at h
      cases hfind : findDataDescriptor env fuel 0 z.stream with
      | none =>
        rw [hfind] at h
        cases h
      | some found =>
        rw [hfind] at h
        obtain ⟨_ | _, stream⟩ := found
        · cases h
        · obtain ⟨-, rfl⟩ := Prod.mk.inj (Option.some.inj h)
          refine ⟨behind_seekBeg ?_ hle, fits_readDescriptor hfits stream, rfl, rfl⟩
          exact (bytes_readDescriptor ..).trans ((bytes_findDataDescriptor hfind).trans hat.bytes_eq)
    · rw [tellg_of_fail hfail, findDataDescriptor_eq_none hfail heof fuel (.inl rfl)] at h
      cases h
  next =>
    obtain ⟨-, rfl⟩ := Prod.mk.inj (Option.some.inj h)
    exact ⟨At.behind hat le_rfl, hfits, rfl, rfl⟩

/-- From one file to the next. A stream that has not failed has moved on. -/
theorem Ready.next (h : Ready env zip z) (hnext : Next env z z') :
    Ready env zip z' ∧ z'.headerSignature = Client.headerSignature ∧
      (z'.stream.good = true → z.stream.pos < z'.stream.pos) := by
  obtain ⟨-, fuel, hfile⟩ := hnext
  obtain ⟨p, -, hat⟩ := h.behind.exists_at
  by_cases hboth : numberAt zip p 4 z.headerSignature = Client.headerSignature ∧
      numberAt zip (p + 26) 2 z.header.localFilenameLength = 59
  · obtain ⟨stream, hstream, heof, hproceed⟩ := unzipFile_of_eq env hat h.fits hboth.1 hboth.2
    have hheader : Fits (z.headerAt zip p) := fits_namesAt (fits_sizesAt h.fits zip (p + 4)) zip (p + 28)
    rw [hproceed, proceedFile] at hfile
    cases hfind : findSizes env fuel
        { z with stream, header := z.headerAt zip p, headerSignature := Client.headerSignature } with
    | none =>
      rw [hfind] at hfile
      cases hfile
    | some found =>
      rw [hfind] at hfile
      obtain ⟨_ | _, z₁⟩ := found
      · cases hfile
      · obtain ⟨hbehind, hfits, hsignature, hlen⟩ := of_findSizes hfind hstream heof hheader
        obtain ⟨hsame, hredoes, hmoves, hmore⟩ := of_finishFile (Option.some.inj hfile)
        have hbehind' := hmoves hbehind
        have hsignature' : z'.headerSignature = Client.headerSignature :=
          hsame.headerSignature.trans hsignature
        refine ⟨⟨?_, hsame.header ▸ hfits, .inr hsignature', fun heof' hfail _ => ?_⟩, hsignature', ?_⟩
        · obtain ⟨p', -, hat'⟩ := hbehind'.exists_at
          exact At.behind hat' (Nat.zero_le _)
        · refine ⟨heof', hfail, hsignature', hsame.header ▸ hfits, ?_, .inr ?_, ?_⟩
          · rw [hsame.header, hlen]
            exact hboth.2
          · rw [hsame.header]
            exact hredoes
          · rw [hsame.contentLength, hsame.contentPosition]
            exact hmore hfail
        · intro hgood
          rcases hbehind'.state with ⟨-, hle, hend⟩ | hfail
          · rcases hat.state with ⟨-, rfl, -⟩ | ⟨-, hlt⟩ <;> omega
          · exact absurd hgood (good_eq_false hfail)
  · obtain ⟨result, z₁, hlast⟩ := unzipFile_of_ne env hat h.fits hboth
    rw [hlast] at hfile
    cases hfile

theorem Ready.of_reached {len pos : ℕ} (h : Reached env zip len pos z) : Ready env zip z := by
  induction h with
  | refl => exact ready_start env zip len pos
  | tail _ hnext ih => exact (ih.next hnext).1

/-- A file in front of which a run goes on for ever. -/
theorem Ready.diverges (h : Ready env zip z) (hstalls : Stalls z) : Diverges env z := by
  rcases hstalls with ⟨hgood, hsignature, hlen, hflag, hlt⟩ | ⟨heof, hfail, hsignature⟩
  · have hat : At zip z.stream.pos z.stream := by
      rcases h.behind.state with ⟨-, -, hle⟩ | hfail
      · exact ⟨h.behind.bytes_eq, .inl ⟨hgood, rfl, hle⟩⟩
      · exact absurd hgood (good_eq_false hfail)
    rw [field, h.behind.bytes_eq] at hsignature hlen hflag hlt
    obtain ⟨stream, hstream, heof, hproceed⟩ := unzipFile_of_eq env hat h.fits hsignature hlen
    refine diverges_of_unzipFile (eof_of_good hgood) fun fuel => ?_
    rcases hstream.state with ⟨-, -, hle⟩ | ⟨hfail, -⟩
    · exact absurd hle (Nat.not_le.mpr hlt)
    · rw [hproceed]
      exact proceedFile_eq_none (by exact hfail) (by exact heof) (by exact hflag) fuel
  · exact (h.stale heof hfail hsignature).diverges

/-- A file in front of which it does not. -/
theorem Ready.exists_unzipFile (h : Ready env zip z) (heof : z.stream.eof = false) (hstalls : ¬ Stalls z) :
    ∃ fuel result, unzipFile env fuel z = some result := by
  obtain ⟨p, -, hat⟩ := h.behind.exists_at
  by_cases hboth : numberAt zip p 4 z.headerSignature = Client.headerSignature ∧
      numberAt zip (p + 26) 2 z.header.localFilenameLength = 59
  · obtain ⟨stream, hstream, -, hproceed⟩ := unzipFile_of_eq env hat h.fits hboth.1 hboth.2
    suffices hsizes : ∃ fuel found, findSizes env fuel
        { z with stream, header := z.headerAt zip p, headerSignature := Client.headerSignature } =
          some found by
      obtain ⟨fuel, found, hfind⟩ := hsizes
      refine ⟨fuel, ?_⟩
      rw [hproceed, proceedFile, hfind]
      obtain ⟨_ | _, z₁⟩ := found <;> exact ⟨_, rfl⟩
    by_cases hflag : hasDescriptorFlag (z.headerAt zip p).bitFlag = true
    · have hgood : stream.good = true := by
        rcases hstream.state with ⟨hgood, -⟩ | ⟨-, hlt⟩
        · exact hgood
        · refine absurd ?_ hstalls
          rcases hat.state with ⟨hgood, rfl, -⟩ | ⟨hfail, hend⟩
          · refine .inl ⟨hgood, ?_⟩
            simp only [field, h.behind.bytes_eq]
            exact ⟨hboth.1, hboth.2, hflag, hlt⟩
          · -- what is read is what is in memory
            refine .inr ⟨heof, hfail, h.headerSignature.resolve_left fun hzero => ?_⟩
            have hsignature := hboth.1
            rw [hzero, numberAt_of_le hend.le (by decide)] at hsignature
            exact absurd hsignature (by decide)
      obtain ⟨fuel, ⟨found, stream'⟩, hfind⟩ := exists_findDataDescriptor env hgood 0
      have htell : tellg stream = (stream.pos, stream) := if_pos hgood
      refine ⟨fuel, ?_⟩
      rw [findSizes, if_pos hflag, htell, hfind]
      cases found <;> exact ⟨_, rfl⟩
    · exact ⟨0, _, if_neg hflag⟩
  · obtain ⟨result, z₁, hlast⟩ := unzipFile_of_ne env hat h.fits hboth
    exact ⟨0, _, hlast 0⟩

/-- A loop that comes to no such file ends. -/
theorem exists_unzipFiles {len pos : ℕ} (hnot : ∀ z, Reached env zip len pos z → ¬ Stalls z)
    (hreached : Reached env zip len pos z) : ∃ fuel result, unzipFiles env fuel z = some result := by
  -- every file but the last takes the stream further
  induction hn : zip.length + 1 - z.stream.pos using Nat.strong_induction_on generalizing z with
  | _ n ih =>
    have h := Ready.of_reached hreached
    cases heof : z.stream.eof with
    | true => exact ⟨1, (true, z), by rw [unzipFiles_succ, if_pos heof]⟩
    | false =>
      obtain ⟨fuel, ⟨_ | last, z'⟩, hfile⟩ := h.exists_unzipFile heof (hnot z hreached)
      · have hnext : Next env z z' := ⟨heof, fuel, hfile⟩
        obtain ⟨h', hsignature, hprogress⟩ := h.next hnext
        have hreached' : Reached env zip len pos z' := hreached.tail hnext
        obtain ⟨more, result, hmore⟩ : ∃ more result, unzipFiles env more z' = some result := by
          cases heof' : z'.stream.eof with
          | true => exact ⟨1, (true, z'), by rw [unzipFiles_succ, if_pos heof']⟩
          | false =>
            rcases h'.behind.state with ⟨hgood, -, hle⟩ | hfail
            · have hlt := hprogress hgood
              exact ih _ (by omega) hreached' rfl
            · exact absurd (.inr ⟨heof', hfail, hsignature⟩) (hnot z' hreached')
        refine ⟨fuel + more + 1, result, ?_⟩
        rw [unzipFiles_succ, heof, if_neg Bool.false_ne_true, unzipFile_mono hfile]
        dsimp only
        rw [Nat.add_comm, unzipFiles_mono hmore]
      · refine ⟨fuel + 1, (last, z'), ?_⟩
        rw [unzipFiles_succ, heof, if_neg Bool.false_ne_true, hfile]

/-- `Unzip` ends if and only if it comes to no file that stalls. -/
theorem terminates_iff (env : ZIPEnv) (zip : List UInt8) (len pos : ℕ) :
    Terminates env zip len pos ↔ ∀ z, Reached env zip len pos z → ¬ Stalls z := by
  constructor
  · intro hterminates z hreached hstalls
    exact ((Ready.of_reached hreached).diverges hstalls).of_reached hreached hterminates
  · intro hnot
    obtain ⟨fuel, result, hrun⟩ := exists_unzipFiles hnot Relation.ReflTransGen.refl
    exact ⟨fuel, by rw [show unzip env fuel (ofStream zip len pos) = some result from hrun]; rfl⟩

/-- A header that announces a data descriptor and an extra field that is not there. -/
def shortArchive : List UInt8 :=
  [0x50, 0x4b, 0x03, 0x04, 20, 0, 8, 0] ++ List.replicate 18 0 ++ [59, 0, 1, 0] ++ List.replicate 59 65

theorem not_terminates_shortArchive :
    ¬ Terminates Archive.exampleZIPEnv shortArchive shortArchive.length 0 := by
  have hstalls : Stalls (start shortArchive shortArchive.length 0) := by
    refine .inl ⟨?_, ?_, ?_, ?_, ?_⟩ <;> decide +kernel
  exact ((ready_start _ _ _ _).diverges hstalls).of_reached Relation.ReflTransGen.refl

end ZIP

end Client
