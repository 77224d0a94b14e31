import Freestanding.Proofs.Image.Resolution

/-!
# Images with something behind them

Whatever is read of an image is read at offsets and with sizes that the image itself gives, so what
follows the image is never looked at. The length of the file is only ever tested against what is to
be read, and a longer file passes every such test. An image that can be read is therefore read the
same with anything behind it.
-/
namespace Freestanding.Image

open Freestanding.Bytes (ByteOrder)

variable {α β : Type} {image bytes : List UInt8}

/-! ## Readings that last -/

/-- What a reading gives of an image, it gives of every image that begins with it. -/
def Lasts (read : List UInt8 → Except Fault α) (image : List UInt8) : Prop :=
  ∀ a, read image = .ok a → ∀ more, read (image ++ more) = .ok a

theorem lasts_const (result : Except Fault α) : Lasts (fun _ => result) image :=
  fun _ h _ => h

theorem Lasts.bind {read : List UInt8 → Except Fault α} {next : α → List UInt8 → Except Fault β}
    (hread : Lasts read image) (hnext : ∀ a, read image = .ok a → Lasts (next a) image) :
    Lasts (fun image => read image >>= fun a => next a image) image := by
  intro b h more
  show (read (image ++ more) >>= fun a => next a (image ++ more)) = .ok b
  cases hfirst : read image with
  | error e => simp only [hfirst] at h; cases h
  | ok a =>
    simp only [hfirst] at h
    rw [hread a hfirst more]
    exact hnext a hfirst b h more

/-- A test may refuse an image, if no longer one fails that does not fail itself. -/
theorem Lasts.unless {bad : List UInt8 → Prop} [DecidablePred bad] {fault : List UInt8 → Fault}
    {next : List UInt8 → Except Fault α} (hbad : ∀ more, bad (image ++ more) → bad image)
    (hnext : ¬ bad image → Lasts next image) :
    Lasts (fun image =>
      if bad image then .error (fault image) else next image) image := by
  intro a h more
  by_cases hfails : bad image
  · simp only [hfails, ↓reduceIte] at h
    cases h
  · have hlonger : ¬ bad (image ++ more) := fun hlonger => hfails (hbad more hlonger)
    simp only [hfails, ↓reduceIte] at h
    simp only [hlonger, ↓reduceIte]
    exact hnext hfails a h more

theorem lasts_forM {γ : Type} {step : γ → List UInt8 → Except Fault Unit} {l : List γ}
    (hstep : ∀ c ∈ l, Lasts (step c) image) :
    Lasts (fun image => l.forM fun c => step c image) image := by
  induction l with
  | nil => exact lasts_const _
  | cons c l ih =>
    exact .bind (hstep c List.mem_cons_self) fun _ _ =>
      ih fun d hd => hstep d (List.mem_cons_of_mem c hd)

/-! ## Bytes at an offset -/

theorem bytesFrom_eq_ok {offset : Nat} :
    bytesFrom image offset = .ok bytes ↔ offset ≤ image.length ∧ bytes = image.drop offset := by
  unfold bytesFrom
  by_cases hbeyond : image.length < offset
  · simp [hbeyond]
  · simp [hbeyond, Nat.not_lt.mp hbeyond, eq_comm]

/-- Where an image is read from an offset on, what follows the image follows the bytes there. -/
theorem bytesFrom_append {offset : Nat} (h : bytesFrom image offset = .ok bytes)
    (more : List UInt8) : bytesFrom (image ++ more) offset = .ok (bytes ++ more) := by
  obtain ⟨hoffset, rfl⟩ := bytesFrom_eq_ok.mp h
  rw [bytesFrom_eq_ok, List.length_append, List.drop_append_of_le_length hoffset]
  exact ⟨by omega, rfl⟩

/-- What is read of the bytes there may be tested against the image as a whole. -/
theorem lasts_bytesFrom {offset : Nat} {next : List UInt8 → List UInt8 → Except Fault α}
    (hnext : ∀ bytes a, next bytes image = .ok a → ∀ more,
      next (bytes ++ more) (image ++ more) = .ok a) :
    Lasts (fun image => bytesFrom image offset >>= fun bytes => next bytes image) image := by
  intro a h more
  show (bytesFrom (image ++ more) offset >>= fun bytes => next bytes (image ++ more)) = .ok a
  cases hbytes : bytesFrom image offset with
  | error e => simp only [hbytes] at h; cases h
  | ok bytes =>
    simp only [hbytes] at h
    rw [bytesFrom_append hbytes more]
    exact hnext bytes a h more

theorem lasts_slice (offset size : Nat) : Lasts (slice · offset size) image := by
  refine lasts_bytesFrom fun bytes taken h more => ?_
  split at h
  · cases h
  · next hsize =>
    rw [← h, List.length_append, if_neg (by omega), List.take_append_of_le_length (by omega)]

theorem lasts_sliceUnlessEmpty (offset size : Nat) :
    Lasts (sliceUnlessEmpty · offset size) image := by
  unfold sliceUnlessEmpty
  split
  · exact lasts_const _
  · exact lasts_slice offset size

/-! ## Readers -/

/-- A reader leaves whatever follows the bytes that it takes. -/
def Reader.Lasting (reader : Reader α) : Prop :=
  ∀ bytes a rest, reader bytes = .ok (a, rest) → ∀ more,
    reader (bytes ++ more) = .ok (a, rest ++ more)

namespace Reader.Lasting

theorem pure (a : α) : Reader.Lasting (Pure.pure a) := by
  intro bytes b rest h more
  obtain ⟨rfl, rfl⟩ := Prod.mk.inj (Except.ok.inj h)
  rfl

theorem bind {reader : Reader α} {next : α → Reader β} (hreader : reader.Lasting)
    (hnext : ∀ a, (next a).Lasting) : Reader.Lasting (reader >>= next) := by
  intro bytes b rest h more
  show (reader (bytes ++ more) >>= fun p => next p.1 p.2) = .ok (b, rest ++ more)
  cases hfirst : reader bytes with
  | error e => simp only [Bind.bind, StateT.bind, hfirst] at h; cases h
  | ok p =>
    simp only [Bind.bind, StateT.bind, hfirst] at h
    rw [hreader bytes p.1 p.2 hfirst more]
    exact hnext p.1 p.2 b rest h more

theorem readNumber (order : ByteOrder) (size : Nat) :
    (Image.readNumber order size).Lasting :=
  fun _ _ _ h more => readNumber_append h more

theorem number {order : ByteOrder} {size : Nat} {next : Nat → Reader α}
    (hnext : ∀ n, (next n).Lasting) : Reader.Lasting (Image.readNumber order size >>= next) :=
  bind (readNumber order size) hnext

theorem many {reader : Reader α} (hreader : reader.Lasting) (count : Nat) :
    (readMany reader count).Lasting := by
  induction count with
  | zero => exact pure _
  | succ count ih => exact bind hreader fun first => bind ih fun others => pure _

/-- What a reader gives of bytes, it gives with anything behind them. -/
theorem on {reader : Reader α} (hreader : reader.Lasting) (bytes : List UInt8) :
    Lasts reader.on bytes := by
  intro a h more
  unfold Reader.on at h ⊢
  cases hread : reader bytes with
  | error e => rw [hread] at h; cases h
  | ok p =>
    rw [hread] at h
    rw [hreader bytes p.1 p.2 hread more]
    exact h

end Reader.Lasting

theorem lasts_numberAt (order : ByteOrder) (offset size : Nat) :
    Lasts (numberAt order · offset size) image :=
  lasts_bytesFrom (Reader.Lasting.readNumber order size).on

theorem ProgramHeader.lasting_read (f : Format) : (read f).Lasting := by
  unfold read
  refine .number fun kind => ?_
  -- the flags stand in one of two places, by the width of words
  cases f.wordSize <;>
    · repeat refine .number fun _ => ?_
      exact .pure _

theorem SectionHeader.lasting_read (f : Format) : (read f).Lasting := by
  unfold read
  repeat refine .number fun _ => ?_
  exact .pure _

theorem Symbol.lasting_read (f : Format) : (read f).Lasting := by
  unfold read
  refine .number fun name => ?_
  split <;>
    · repeat refine .number fun _ => ?_
      exact .pure _

theorem DynamicEntry.lasting_read (f : Format) : (read f).Lasting :=
  .number fun _ => .number fun _ => .pure _

theorem FileHeader.lasting_readFields (f : Format) : (readFields f).Lasting := by
  unfold readFields
  repeat refine .number fun _ => ?_
  exact .pure _

/-! ## The parts of an image -/

theorem readFormat_append {f : Format} (h : readFormat image = .ok f) (more : List UInt8) :
    identificationBytes ≤ image.length ∧ readFormat (image ++ more) = .ok f := by
  have hlength : identificationBytes ≤ image.length := by
    apply Nat.le_of_not_lt
    intro hshort
    have htake : (image.take identificationBytes).length < identificationBytes := by
      rw [List.length_take]
      omega
    simp only [readFormat, htake, ↓reduceIte] at h
    cases h
  have htake : (image ++ more).take identificationBytes = image.take identificationBytes :=
    List.take_append_of_le_length hlength
  refine ⟨hlength, ?_⟩
  simp only [readFormat, htake] at h ⊢
  exact h

theorem FileHeader.lasts_read : Lasts FileHeader.read image := by
  refine .bind (fun f h more => (readFormat_append h more).2) fun f hformat header h more => ?_
  have hlength := (readFormat_append hformat []).1
  rw [List.drop_append_of_le_length hlength]
  exact (lasting_readFields f).on _ header h more

theorem div_length_append (entry : Nat) (more : List UInt8) :
    image.length / entry ≤ (image ++ more).length / entry := by
  apply Nat.div_le_div_right
  rw [List.length_append]
  omega

theorem lasts_readProgramHeaders (header : FileHeader) :
    Lasts (readProgramHeaders header) image := by
  unfold readProgramHeaders
  refine .unless (fun more h => Nat.lt_of_le_of_lt (div_length_append _ more) h) fun _ => ?_
  split
  · exact lasts_const _
  · exact lasts_bytesFrom ((ProgramHeader.lasting_read _).many _).on

theorem lasts_readSectionHeaders (header : FileHeader) :
    Lasts (readSectionHeaders header) image := by
  unfold readSectionHeaders
  split
  · exact lasts_const _
  refine lasts_bytesFrom fun bytes headers h more => ?_
  cases hfirst : SectionHeader.read header.format bytes with
  | error e => simp only [hfirst] at h; cases h
  | ok p =>
    have hothers (count : Nat) : Lasts (fun rest =>
        (readMany (SectionHeader.read header.format) count).on rest >>= fun others =>
          pure (p.1 :: others)) p.2 :=
      .bind (((SectionHeader.lasting_read _).many count).on _) fun _ _ => lasts_const _
    have hroom : image.length / SectionHeader.entryBytes header.format.wordSize ≤
        (image ++ more).length / SectionHeader.entryBytes header.format.wordSize :=
      div_length_append _ more
    simp only [hfirst, SectionHeader.lasting_read _ bytes p.1 p.2 hfirst more, bind, Except.bind]
      at h ⊢
    generalize (if header.sectionCount = 0 then p.1.size else header.sectionCount) = count at h ⊢
    by_cases hmany : count > image.length / SectionHeader.entryBytes header.format.wordSize
    · rw [if_pos hmany] at h
      cases h
    · rw [if_neg hmany] at h
      rw [if_neg (by omega)]
      exact hothers _ headers h more

theorem SectionHeader.lasts_check (s : SectionHeader) :
    Lasts (fun image => s.check image.length) image := by
  unfold check
  split
  · exact lasts_const _
  refine .unless (fun more h => h) fun _ => .unless (fun more h => ?_) fun _ => ?_
  · rw [List.length_append] at h
    omega
  exact .unless (fun more h => h) fun _ => lasts_const _

theorem StringTable.lasts_read (offset size : Nat) : Lasts (read · offset size) image := by
  unfold read
  refine .unless (fun more h => ?_) fun hstart => .unless (fun more h => h) fun _ =>
    .unless (fun more h => ?_) fun hend => ?_
  · rw [List.length_append] at h
    omega
  · rw [List.length_append] at h
    omega
  · intro table h more
    have hslice : ((image ++ more).drop offset).take size = (image.drop offset).take size := by
      rw [List.drop_append_of_le_length (by omega),
        List.take_append_of_le_length (by rw [List.length_drop]; omega)]
    simp only [hslice]
    exact h

theorem StringTable.lasts_ofSection (sections : List SectionHeader) (index : Nat) :
    Lasts (ofSection · sections index) image := by
  unfold ofSection
  dsimp only
  generalize (if index = indirect then sections.head?.bind fun first => sections[first.link]?
    else sections[index]?) = found
  cases found with
  | none => exact lasts_const _
  | some s => exact s.lasts_check.bind fun _ _ => lasts_read s.offset s.size

theorem Symbol.lasts_readTable (f : Format) (offset count : Nat) :
    Lasts (readTable f · offset count) image := by
  unfold readTable
  refine .unless (fun more h => ?_) fun hstart => .unless (fun more h => h) fun _ =>
    .unless (fun more h => ?_) fun hend symbols h more => ?_
  · rw [List.length_append] at h
    omega
  · rw [List.length_append] at h
    omega
  · rw [List.drop_append_of_le_length (by omega)]
    exact ((lasting_read f).many count).on _ symbols h more

theorem lasts_readSymbols (f : Format) (sections : List SectionHeader) :
    Lasts (readSymbols f · sections) image := by
  unfold readSymbols
  split
  · exact lasts_const _
  · next s _ =>
    refine .bind (Symbol.lasts_readTable f s.offset _) fun symbols _ => ?_
    exact .bind (StringTable.lasts_ofSection sections s.link) fun _ _ => lasts_const _

/-! ## The dynamic segment -/

theorem lasts_readDynamic? (f : Format) (segments : List ProgramHeader) :
    Lasts (readDynamic? f · segments) image := by
  unfold readDynamic?
  split
  · exact lasts_const _
  · next segment _ =>
    intro entries h more
    cases hbytes : sliceUnlessEmpty image segment.offset segment.fileSize with
    | error e => simp only [hbytes] at h; cases h
    | ok bytes =>
      simp only [hbytes] at h
      simp only [lasts_sliceUnlessEmpty _ _ bytes hbytes more]
      exact h

theorem lasts_readRelocations (f : Format) (machine offset size : Nat) (addend : Bool) :
    Lasts (readRelocations f machine · offset size addend) image :=
  .bind (lasts_sliceUnlessEmpty offset size) fun _ _ => lasts_const _

theorem lasts_hashedCount (f : Format) (machine offset : Nat) :
    Lasts (hashedCount f machine · offset) image :=
  lasts_numberAt f.order _ _

/-- A chain ends at its mark, so what stands behind the mark is not looked at. -/
theorem lasts_chainEnd (order : ByteOrder) (index : Nat) : Lasts (chainEnd order index) bytes := by
  intro count h more
  induction index, bytes using chainEnd.induct order with
  | case1 index a b c d rest hmark =>
    simp only [chainEnd, hmark, ↓reduceIte] at h
    simp only [List.cons_append, chainEnd, hmark, ↓reduceIte, h]
  | case2 index a b c d rest hmark ih =>
    simp only [chainEnd, hmark, ↓reduceIte] at h
    simp only [List.cons_append, chainEnd, hmark, ↓reduceIte, ih h]
  | case3 index rest hshort =>
    rw [chainEnd] at h
    · cases h
    · exact hshort

theorem lasts_filteredCount (f : Format) (offset : Nat) :
    Lasts (filteredCount f · offset) image := by
  unfold filteredCount
  refine .bind (lasts_numberAt _ _ _) fun buckets _ => ?_
  refine .bind (lasts_numberAt _ _ _) fun first _ => ?_
  refine .bind (lasts_numberAt _ _ _) fun filter _ => ?_
  refine .unless (fun more h => h) fun _ => ?_
  dsimp only
  have hheads : Lasts (fun image => bytesFrom image (offset + 16 + filter * f.wordSize.bytes) >>=
      (readMany (readNumber f.order 4) buckets).on) image :=
    lasts_bytesFrom ((Reader.Lasting.readNumber f.order 4).many buckets).on
  have hchain (last start : Nat) : Lasts (fun image =>
      if last < first then pure 0 else bytesFrom image start >>= chainEnd f.order last) image := by
    split
    · exact lasts_const _
    · exact lasts_bytesFrom fun _ => lasts_chainEnd f.order last
  simpa only [bind_assoc] using hheads.bind fun heads _ => hchain (heads.foldl max 0)
    (offset + 16 + filter * f.wordSize.bytes + buckets * 4 + (heads.foldl max 0 - first) * 4)

theorem lasts_readDynamicSymbols (header : FileHeader) (segments : List ProgramHeader) :
    Lasts (readDynamicSymbols header · segments) image := by
  unfold readDynamicSymbols
  refine .bind (lasts_readDynamic? _ _) fun entries _ => ?_
  split
  · next entries _ =>
    refine .bind (StringTable.lasts_read _ _) fun names _ => ?_
    refine .bind (lasts_readRelocations _ _ _ _ _) fun withAddend _ => ?_
    refine .bind (lasts_readRelocations _ _ _ _ _) fun plain _ => ?_
    refine .bind (lasts_readRelocations _ _ _ _ _) fun linkage _ => ?_
    split
    · refine .bind (lasts_filteredCount _ _) fun hashed _ => ?_
      exact .bind (Symbol.lasts_readTable _ _ _) fun _ _ => lasts_const _
    · refine .bind (lasts_hashedCount _ _ _) fun hashed _ => ?_
      exact .bind (Symbol.lasts_readTable _ _ _) fun _ _ => lasts_const _
    · refine .bind (lasts_const (.ok 0)) fun hashed _ => ?_
      exact .bind (Symbol.lasts_readTable _ _ _) fun _ _ => lasts_const _
  · exact lasts_const _

theorem lasts_checkRelocations (sections : List SectionHeader) :
    Lasts (checkRelocations · sections) image := by
  refine lasts_forM fun s _ => ?_
  split
  · refine .bind s.lasts_check fun _ _ => ?_
    exact .bind (lasts_sliceUnlessEmpty _ _) fun _ _ => lasts_const _
  · exact lasts_const _

theorem lasts_checkVersions (sections : List SectionHeader) :
    Lasts (checkVersions · sections) image := by
  refine lasts_forM fun kind _ => ?_
  split
  · exact lasts_const _
  · exact .bind (lasts_slice _ _) fun _ _ => lasts_const _

theorem Tables.lasts_read : Lasts Tables.read image := by
  unfold Tables.read
  refine .bind FileHeader.lasts_read fun header _ => ?_
  refine .bind (lasts_readProgramHeaders header) fun segments _ => ?_
  refine .bind (lasts_readSectionHeaders header) fun sections _ => ?_
  refine .bind (StringTable.lasts_ofSection sections _) fun sectionNames _ => ?_
  refine .bind (lasts_readSymbols _ sections) fun symbols _ => ?_
  refine .bind (lasts_readDynamicSymbols header segments) fun dynamicSymbols _ => ?_
  refine .bind (lasts_checkRelocations sections) fun _ _ => ?_
  exact .bind (lasts_checkVersions sections) fun _ _ => lasts_const _

/-- What stands behind an image is never looked at. An image that can be read is read the same with
anything behind it, so every name gets the same answer and the same sections are filled with zeros.
-/
theorem inspect_extended {tables : Tables} (hread : Tables.read bytes = .ok tables)
    (more : List UInt8) :
    Tables.read (bytes ++ more) = .ok tables ∧
      (∀ name, inspectSymbol (bytes ++ more) name = inspectSymbol bytes name) ∧
      zeroFillSections (bytes ++ more) = zeroFillSections bytes := by
  have hlonger : Tables.read (bytes ++ more) = .ok tables := Tables.lasts_read tables hread more
  refine ⟨hlonger, fun name => ?_, ?_⟩
  · rw [inspectSymbol_of_read hlonger, inspectSymbol_of_read hread]
  · simp only [zeroFillSections, readTables, hlonger, hread]

open Description (small smallArrangement) in
/-- An image with a signature behind it. -/
theorem inspect_extended_small :
    Tables.read (small.encode smallArrangement (List.replicate 512 0)) =
        .ok (small.tables smallArrangement) ∧
      inspectSymbol (small.encode smallArrangement (List.replicate 512 0) ++ [0x7F, 0x45])
          "region" =
        inspectSymbol (small.encode smallArrangement (List.replicate 512 0)) "region" := by
  have hread := Description.read_encode Description.small_wellFormed Description.small_fits
  obtain ⟨_, hnames, _⟩ := inspect_extended hread [0x7F, 0x45]
  exact ⟨hread, hnames "region"⟩

end Freestanding.Image
