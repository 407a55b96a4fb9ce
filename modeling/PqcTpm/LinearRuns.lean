import Mathlib.Logic.Function.Basic
import PqcTpm.LinearStore

/-!
# Runs of the linear NVRAM store

The calls of the backend in any order, with hosts that refuse to flush or to shrink and with restarts in between: no
access leaves the map, and the names hold what the calls left there.
-/
namespace PqcTpm
open ByteCodec ByteMemory CompactSections LinearHeader

/-! ## The operations -/

namespace LinearStore
variable {host : LinearHost} {s s' : LinearStore} {order xs ys : List Nat} {f i : Nat}

/-- The store while it is in use. -/
structure Sound (s : LinearStore) (order : List Nat) : Prop where
  laid : Laid s.octets order
  mapped : s.mapped = true
  room : filesEnd s.octets order ≤ s.length
  within : s.length ≤ s.size
  addressable : s.size < 2 ^ 32

/-- The files that the other store holds, a file apart. -/
def SameBut (s s' : LinearStore) (f : Nat) : Prop :=
  ∀ i < maxStates, i ≠ f → fileBytes s'.octets i = fileBytes s.octets i

theorem SameBut.trans {s₁ s₂ s₃ : LinearStore} (h₁ : SameBut s₁ s₂ f) (h₂ : SameBut s₂ s₃ f) : SameBut s₁ s₃ f :=
  fun i hi hne => (h₂ i hi hne).trans (h₁ i hi hne)

theorem Sound.headerSize_le (h : Sound s order) : headerSize ≤ s.size := by
  have hend := headerSize_le_filesEnd s.octets order
  have hroom := h.room
  have hwithin := h.within
  omega

theorem Sound.of_agree (h : Sound s order) (hm : ∀ k < filesEnd s.octets order, s'.octets k = s.octets k)
    (hmapped : s'.mapped = true) (hroom : filesEnd s.octets order ≤ s'.length) (hwithin : s'.length ≤ s'.size)
    (hsize : s'.size < 2 ^ 32) : Sound s' order where
  laid := h.laid.of_agree hm
  mapped := hmapped
  room := by
    rw [h.laid.filesEnd_of_agree hm]
    exact hroom
  within := hwithin
  addressable := hsize

/-- A resize that leaves room for the files keeps them, whatever comes of it. -/
theorem safeResize_spec (h : Sound s order) (hgrow : host.Grows) {n : Nat} (hn : filesEnd s.octets order ≤ n)
    (hlt : n < 2 ^ 32) : ∃ rc s', s.safeResize host n = (rc, s') ∧ Sound s' order ∧
      (∀ k < filesEnd s.octets order, s'.octets k = s.octets k) ∧ (rc = .success → n ≤ s'.length) := by
  have hhead := headerSize_le_filesEnd s.octets order
  have hroom := h.room
  have hwithin := h.within
  have hrefuse : ∀ rc : TpmResult, rc ≠ .success → s.fileResize host n = (rc, s) →
      ∃ rc s', s.safeResize host n = (rc, s') ∧ Sound s' order ∧
        (∀ k < filesEnd s.octets order, s'.octets k = s.octets k) ∧ (rc = .success → n ≤ s'.length) := by
    intro rc hrc heq
    refine ⟨rc, s, ?_, h, fun k _ => rfl, fun hok => absurd hok hrc⟩
    simp only [safeResize, heq]
    exact if_pos hrc
  have hgrant : ∀ s₁ : LinearStore, s.fileResize host n = (.success, s₁) → n ≤ s₁.size → s₁.mapped = true →
      s₁.size < 2 ^ 32 → (∀ k < filesEnd s.octets order, s₁.octets k = s.octets k) →
      ∃ rc s', s.safeResize host n = (rc, s') ∧ Sound s' order ∧
        (∀ k < filesEnd s.octets order, s'.octets k = s.octets k) ∧ (rc = .success → n ≤ s'.length) := by
    intro s₁ heq hsize hmapped haddr hm
    refine ⟨.success, { s₁ with length := s₁.size }, ?_, ?_, hm, fun _ => hsize⟩
    · simp only [safeResize, heq]
      rw [if_neg (not_not.mpr rfl), if_neg (Nat.not_lt.mpr hsize)]
    · exact h.of_agree hm hmapped (Nat.le_trans hn hsize) (Nat.le_refl _) haddr
  by_cases htrunc : s.canTruncate = true
  · cases hsync : host.resizeSync with
    | false =>
        apply hrefuse .fail (by simp)
        simp [fileResize, htrunc, hsync]
    | true =>
        by_cases hok : host.truncate s.size n = true
        · apply hgrant { s with octets := clip s.octets (min s.size n), size := n, mapped := true }
          · simp [fileResize, htrunc, hsync, hok, mmap, Nat.le_trans hhead hn]
          · exact Nat.le_refl _
          · rfl
          · exact hlt
          · intro k hk
            dsimp only
            rw [clip, if_pos (by omega)]
        · have hnot : ¬s.size < n := fun hs => hok (hgrow _ _ hs)
          apply hgrant { s with mapped := true }
          · simp [fileResize, htrunc, hsync, hok, hnot, mmap, h.headerSize_le]
          · exact Nat.le_of_not_lt hnot
          · rfl
          · exact h.addressable
          · intro k _
            rfl
  · by_cases hs : s.size < n
    · apply hrefuse .size (by simp)
      simp [fileResize, htrunc, hs]
    · apply hgrant s
      · simp [fileResize, htrunc, hs]
      · exact Nat.le_of_not_lt hs
      · exact h.mapped
      · exact h.addressable
      · intro k _
        rfl

/-- An allocation that succeeds adds the file behind the others; one that fails changes no file. -/
theorem allocFile_spec (h : Sound s order) (hgrow : host.Grows) (hf : f < 3) (hnot : f ∉ order) {size : Nat}
    (hpos : 0 < size) (hsize : size ≤ 2 ^ 30) : ∃ rc s', s.allocFile host f size = (rc, s') ∧ SameBut s s' f ∧
      ((rc ≠ .success ∧ Sound s' order) ∨
        (rc = .success ∧ Sound s' (order ++ [f]) ∧ size ≤ (file s'.octets f).sectionLength)) := by
  obtain ⟨hle, hsmall, -⟩ := roundToNextPowerOf2_spec hpos hsize (by omega)
  have hlen := h.laid.length_le_of_not_mem hf hnot
  have hend := h.laid.filesEnd_le
  have hmul : order.length * 2 ^ 30 ≤ 2 * 2 ^ 30 := Nat.mul_le_mul_right _ hlen
  have hnew : filesEnd s.octets order + roundToNextPowerOf2 size < 2 ^ 32 := by
    simp only [headerSize] at hend
    omega
  obtain ⟨rc, s₁, hresize, hsound, hm, hroom⟩ := safeResize_spec h hgrow (Nat.le_add_right _ _) hnew
  have hsame : ∀ i < maxStates, fileBytes s₁.octets i = fileBytes s.octets i := fun i hi =>
    h.laid.fileBytes_of_agree hm hi
  by_cases hrc : rc = .success
  · subst hrc
    have hroom := hroom rfl
    obtain ⟨hlaid, hfile⟩ := hsound.laid.alloc hf hnot size (Nat.lt_of_lt_of_le hpos hle) hsmall hle
    rw [h.laid.filesEnd_of_agree hm] at hlaid hfile
    let e : FileEntry := ⟨filesEnd s.octets order, size, roundToNextPowerOf2 size⟩
    refine ⟨.success, { s₁ with octets := setFile s₁.octets f e }, ?_, ?_, .inr ⟨rfl, ?_, ?_⟩⟩
    · simp only [allocFile, h.laid.foldl_laterEnd_eq, w32_of_lt hnew, hresize]
      exact if_neg (not_not.mpr rfl)
    · intro i hi hne
      rw [← hsame i hi]
      dsimp only
      rw [fileBytes, fileBytes, file_setFile_of_ne hne]
      split
      · rfl
      · rename_i hoff
        have hmem := (hsound.laid.allocated i hi).mp hoff
        have hhead := (hsound.laid.bounds hmem).1
        have hat := (fileAt_bounds (i := f) (by simp only [maxStates]; omega)).2
        rw [setFile, load_store_disjoint (.inr (by simp only [List.length_append, le_length]; omega))]
    · refine ⟨hlaid, hsound.mapped, ?_, hsound.within, hsound.addressable⟩
      have hlast := (hlaid.bounds (List.mem_append_right order List.mem_cons_self)).2
      rw [filesEnd, endOf_append, endOf_cons, endOf_nil]
      dsimp only at hfile ⊢
      rw [hfile]
      have hcongr : endOf (fun i => (file (setFile s₁.octets f e) i).sectionLength) headerSize order =
          filesEnd s.octets order := by
        rw [← h.laid.filesEnd_of_agree hm]
        apply endOf_congr
        intro i hi
        have hne : i ≠ f := ne_of_mem_of_not_mem hi hnot
        rw [file_setFile_of_ne hne]
      rw [hcongr]
      exact hroom
    · dsimp only
      rw [hfile]
      exact hle
  · refine ⟨rc, s₁, ?_, fun i hi _ => hsame i hi, .inl ⟨hrc, hsound⟩⟩
    simp only [allocFile, h.laid.foldl_laterEnd_eq, w32_of_lt hnew, hresize]
    exact if_pos hrc

/-- The gap is closed within the map. -/
theorem compact_spec (h : Sound s (xs ++ f :: ys)) : ∃ m, s.compact (file s.octets f) (compaction s.octets f) =
      some { s with octets := m } ∧ Laid m (xs ++ ys) ∧
      filesEnd m (xs ++ ys) + (file s.octets f).sectionLength = filesEnd s.octets (xs ++ f :: ys) ∧
      ∀ i < maxStates, fileBytes m i = if i = f then none else fileBytes s.octets i := by
  have hlaid := h.laid
  have hend := hlaid.filesEnd_lt
  have hroom := h.room
  have hwithin := h.within
  have hf := hlaid.bounds (List.mem_append_right xs List.mem_cons_self)
  cases ys with
  | nil =>
      have hnext := hlaid.compaction_last
      obtain ⟨hrest, hsum⟩ := @Laid.removed _ (compaction s.octets f).octets _ _ _ hlaid fun k _ => rfl
      refine ⟨(compaction s.octets f).octets, ?_, hrest, hsum, fun i hi => hlaid.removed_bytes (fun k _ => rfl) ?_ ?_ hi⟩
      · simp only [compact]
        rw [if_pos hnext]
      · intro k hlo _
        exact hlaid.compaction_outside (.inr hlo)
      · intro i hi
        cases hi
  | cons y ys =>
      obtain ⟨hnext, hstate⟩ := hlaid.compaction_range
      have hy := (hlaid.bounds (List.mem_append_right xs (List.mem_cons_of_mem f List.mem_cons_self))).2
      have hfirst : (file s.octets y).offset = (file s.octets f).offset + (file s.octets f).sectionLength :=
        hlaid.packed.middle.2.2.1
      generalize hn : filesEnd s.octets (xs ++ f :: y :: ys) -
        ((file s.octets f).offset + (file s.octets f).sectionLength) = n
      have hw : w32 ((compaction s.octets f).stateEnd + 2 ^ 32 - (compaction s.octets f).nextOffset) = n := by
        rw [hnext, hstate, w32_sub (by omega) (by omega), hn]
      generalize hm : move (compaction s.octets f).octets
        ((file s.octets f).offset + (file s.octets f).sectionLength) (file s.octets f).offset n = m
      have hhead : ∀ k < headerSize, m k = (compaction s.octets f).octets k := by
        intro k hk
        rw [← hm, move, store, if_neg (by omega)]
      obtain ⟨hrest, hsum⟩ := hlaid.removed hhead
      refine ⟨m, ?_, hrest, hsum, fun i hi => hlaid.removed_bytes hhead ?_ ?_ hi⟩
      · have hin : s.reaches ((file s.octets f).offset + (file s.octets f).sectionLength) n = true := by
          rw [reaches, h.mapped, Bool.true_and, decide_eq_true_iff]
          omega
        have hin' : s.reaches (file s.octets f).offset n = true := by
          rw [reaches, h.mapped, Bool.true_and, decide_eq_true_iff]
          omega
        simp only [compact, hw]
        rw [if_neg (by omega), hnext, hin, hin', hm]
        rfl
      · intro k hlo hhi
        rw [← hm, move, store, if_neg (by omega), hlaid.compaction_outside (.inr hlo)]
      · intro i hi
        have hmem : i ∈ xs ++ f :: y :: ys := List.mem_append_right xs (List.mem_cons_of_mem f hi)
        have hbehind := hlaid.packed.behind hi
        have hb := hlaid.bounds hmem
        have hd := hlaid.data i hmem
        obtain ⟨k, hk⟩ : ∃ k, (file s.octets i).offset =
            (file s.octets f).offset + (file s.octets f).sectionLength + k := ⟨_, (Nat.add_sub_cancel' hbehind).symm⟩
        have hmoved : load m ((file s.octets f).offset + k) (file s.octets i).dataLength =
            load (compaction s.octets f).octets (file s.octets i).offset (file s.octets i).dataLength := by
          rw [← hm, load_move (by omega), hk]
        rw [show (file s.octets i).offset - (file s.octets f).sectionLength = (file s.octets f).offset + k by omega,
          hmoved]
        apply load_congr
        intro j hlo _
        exact hlaid.compaction_outside (.inr (by omega))

/-- A removal always takes the file away, and nothing else. -/
theorem removeFile_spec (h : Sound s (xs ++ f :: ys)) (hgrow : host.Grows) (resize : Bool) :
    ∃ rc s', s.removeFile host f resize = some (rc, s') ∧ Sound s' (xs ++ ys) ∧ SameBut s s' f ∧
      (resize = false → rc = .success) := by
  have hlaid := h.laid
  have hmem : f ∈ xs ++ f :: ys := List.mem_append_right xs List.mem_cons_self
  have hoff : (file s.octets f).offset ≠ 0 := (hlaid.allocated f (hlaid.lt_maxStates hmem)).mpr hmem
  obtain ⟨m, hcompact, hrest, hsum, hbytes⟩ := compact_spec h
  have hroom := h.room
  have hwithin := h.within
  have haddr := h.addressable
  have hsound : Sound { s with octets := m } (xs ++ ys) := ⟨hrest, h.mapped, by dsimp only; omega, hwithin, haddr⟩
  have hsame : SameBut s { s with octets := m } f := by
    intro i hi hne
    dsimp only
    rw [hbytes i hi, if_neg hne]
  have hstart : s.removeFile host f resize = (some { s with octets := m }).bind fun s₁ =>
      if resize then
        let r := s₁.safeResize host (w32 (s₁.length + 2 ^ 32 - (file s.octets f).sectionLength))
        some (r.1, if r.1 = .success then
          { r.2 with length := w32 (s₁.length + 2 ^ 32 - (file s.octets f).sectionLength) } else r.2)
      else some (.success, s₁) := by
    rw [← hcompact]
    simp only [removeFile]
    rw [if_neg hoff]
    rfl
  rw [hstart, Option.bind_some]
  cases resize with
  | false => exact ⟨.success, _, rfl, hsound, hsame, fun _ => rfl⟩
  | true =>
      have hlen : w32 (s.length + 2 ^ 32 - (file s.octets f).sectionLength) =
          s.length - (file s.octets f).sectionLength := w32_sub (by omega) (by omega)
      obtain ⟨rc, s₂, hresize, hsound₂, hm, hgranted⟩ := safeResize_spec hsound hgrow
        (n := s.length - (file s.octets f).sectionLength) (by dsimp only; omega) (by omega)
      have hsame₂ : SameBut s s₂ f := by
        intro i hi hne
        rw [← hsame i hi hne]
        exact hsound.laid.fileBytes_of_agree hm hi
      dsimp only
      rw [hlen, hresize, if_pos rfl]
      dsimp only
      by_cases hrc : rc = .success
      · refine ⟨rc, _, rfl, ?_, ?_, fun hno => absurd hno (by simp)⟩
        · rw [if_pos hrc]
          have hend := hsound.laid.filesEnd_of_agree hm
          have hw := hsound₂.within
          have hg := hgranted hrc
          refine ⟨hsound₂.laid, hsound₂.mapped, ?_, ?_, hsound₂.addressable⟩
          · dsimp only at hend ⊢
            omega
          · dsimp only
            omega
        · rw [if_pos hrc]
          exact hsame₂
      · refine ⟨rc, _, rfl, ?_, ?_, fun hno => absurd hno (by simp)⟩
        · rw [if_neg hrc]
          exact hsound₂
        · rw [if_neg hrc]
          exact hsame₂

theorem SameBut.refl : SameBut s s f := fun _ _ _ => rfl

theorem Sound.fileBytes_eq_none (h : Sound s order) (hf : f < maxStates) (hnot : f ∉ order) :
    fileBytes s.octets f = none := h.laid.fileBytes_of_not_mem hf hnot

theorem removeFile_absent (h : Sound s order) (hf : f < maxStates) (hnot : f ∉ order) (resize : Bool) :
    s.removeFile host f resize = some (.success, s) := by
  have hoff : (file s.octets f).offset = 0 := not_not.mp fun hne => hnot ((h.laid.allocated f hf).mp hne)
  simp only [removeFile]
  rw [if_pos hoff]

/-- Room is made for the file, or it is gone. -/
theorem makeRoom_spec (h : Sound s order) (hgrow : host.Grows) (hf : f < 3) {n : Nat} (hpos : 0 < n)
    (hn : n ≤ 2 ^ 30) : ∃ rc s' order', s.makeRoom host f n = some (rc, s') ∧ Sound s' order' ∧ SameBut s s' f ∧
      ((rc = .success ∧ f ∈ order' ∧ n ≤ (file s'.octets f).sectionLength) ∨
        (rc ≠ .success ∧ fileBytes s'.octets f = none)) := by
  have hlt : f < maxStates := Nat.lt_trans hf (by simp [maxStates])
  have halloc : ∀ (s₁ : LinearStore) (order₁ : List Nat), Sound s₁ order₁ → f ∉ order₁ → SameBut s s₁ f →
      ∃ rc s' order', s₁.allocFile host f n = (rc, s') ∧ Sound s' order' ∧ SameBut s s' f ∧
        ((rc = .success ∧ f ∈ order' ∧ n ≤ (file s'.octets f).sectionLength) ∨
          (rc ≠ .success ∧ fileBytes s'.octets f = none)) := by
    intro s₁ order₁ hsound hnot hsame
    obtain ⟨rc, s', heq, hsame', hout⟩ := allocFile_spec hsound hgrow hf hnot hpos hn
    rcases hout with ⟨hrc, hsound'⟩ | ⟨hrc, hsound', hsec⟩
    · exact ⟨rc, s', order₁, heq, hsound', hsame.trans hsame', .inr ⟨hrc, hsound'.fileBytes_eq_none hlt hnot⟩⟩
    · exact ⟨rc, s', order₁ ++ [f], heq, hsound', hsame.trans hsame',
        .inl ⟨hrc, List.mem_append_right order₁ List.mem_cons_self, hsec⟩⟩
  by_cases hmem : f ∈ order
  · have hoff : (file s.octets f).offset ≠ 0 := (h.laid.allocated f hlt).mpr hmem
    by_cases hsec : (file s.octets f).sectionLength < n
    · obtain ⟨xs, ys, rfl⟩ := List.append_of_mem hmem
      obtain ⟨rc, s₁, hremove, hsound₁, hsame₁, hok⟩ := removeFile_spec h hgrow false
      obtain rfl := hok rfl
      have hnd := h.laid.nodup
      rw [List.nodup_append, List.nodup_cons] at hnd
      have hnot : f ∉ xs ++ ys := fun hin => (List.mem_append.mp hin).elim
        (fun hx => hnd.2.2 f hx f List.mem_cons_self rfl) hnd.2.1.1
      obtain ⟨rc, s', order', heq, hrest⟩ := halloc s₁ (xs ++ ys) hsound₁ hnot hsame₁
      refine ⟨rc, s', order', ?_, hrest⟩
      simp only [makeRoom]
      rw [if_neg hoff, if_pos hsec, hremove]
      exact congrArg some heq
    · refine ⟨.success, s, order, ?_, h, SameBut.refl, .inl ⟨rfl, hmem, Nat.le_of_not_lt hsec⟩⟩
      simp only [makeRoom]
      rw [if_neg hoff, if_neg hsec]
  · have hoff : (file s.octets f).offset = 0 := not_not.mp fun hne => hmem ((h.laid.allocated f hlt).mp hne)
    obtain ⟨rc, s', order', heq, hrest⟩ := halloc s order h hmem SameBut.refl
    refine ⟨rc, s', order', ?_, hrest⟩
    simp only [makeRoom]
    rw [if_pos hoff, heq]

theorem getFileNr_lt {name : String} (h : getFileNr name = some f) : f < 3 := by
  rw [getFileNr] at h
  split at h
  · cases h
    omega
  · split at h
    · cases h
      omega
    · split at h
      · cases h
        omega
      · cases h

theorem getFileNr_inj {name name' : String} (h : getFileNr name = some f) (h' : getFileNr name' = some f) :
    name = name' := by
  rw [getFileNr] at h h'
  grind

/-- A store that succeeds has put its data into the file; one that fails leaves the new data or no file, and the
other files as they were. -/
theorem storeData_spec (h : Sound s order) (hgrow : host.Grows) {name : String} (hname : getFileNr name = some f)
    {filedata : Bytes} (hpos : 0 < filedata.length) (hlen : filedata.length ≤ 2 ^ 30) :
    ∃ rc s' order', s.storeData host name filedata = some (rc, s') ∧ Sound s' order' ∧ SameBut s s' f ∧
      (fileBytes s'.octets f = some filedata ∨ (rc ≠ .success ∧ fileBytes s'.octets f = none)) := by
  have hlt : f < maxStates := Nat.lt_trans (getFileNr_lt hname) (by simp [maxStates])
  obtain ⟨rc, s₁, order', hroom, hsound, hsame, hout⟩ := makeRoom_spec h hgrow (getFileNr_lt hname) hpos hlen
  simp only [storeData, hname, h.mapped, hroom, Option.bind_eq_bind, Option.bind_some]
  rcases hout with ⟨rfl, hmem, hsec⟩ | ⟨hrc, hnone⟩
  · have hb := hsound.laid.bounds hmem
    have hin : s₁.reaches (file s₁.octets f).offset filedata.length = true := by
      have hr := hsound.room
      have hw := hsound.within
      rw [reaches, hsound.mapped, Bool.true_and, decide_eq_true_iff]
      omega
    have hwrite : ∀ m₁ : Memory, m₁ = (if decide (filedata.length ≠ (file s₁.octets f).dataLength) then
        setDataLength s₁.octets f filedata.length else s₁.octets) →
        file m₁ f = { file s₁.octets f with dataLength := filedata.length } ∧
          (∀ i, i ≠ f → file m₁ i = file s₁.octets i) ∧ ∀ k, k < 12 ∨ headerSize ≤ k → m₁ k = s₁.octets k := by
      intro m₁ hm₁
      by_cases hsame : filedata.length = (file s₁.octets f).dataLength
      · rw [if_neg (by simp [hsame])] at hm₁
        subst hm₁
        exact ⟨by rw [hsame], fun _ _ => rfl, fun _ _ => rfl⟩
      · rw [if_pos (decide_eq_true hsame)] at hm₁
        subst hm₁
        refine ⟨file_setDataLength_self (by omega), fun i hne => file_setDataLength_of_ne hne, ?_⟩
        intro k hk
        have hat := fileAt_bounds hlt
        rw [setDataLength, store, if_neg (by rw [le_length]; omega)]
    obtain ⟨hself, hother, houtside⟩ := hwrite _ rfl
    obtain ⟨hlaid, hend, hbytes⟩ := hsound.laid.write hmem hsec hself hother houtside
    rw [if_neg (by simp), if_neg (not_not.mpr rfl), if_pos hin]
    refine ⟨_, _, order', rfl, ⟨hlaid, hsound.mapped, ?_, hsound.within, hsound.addressable⟩, ?_, .inl ?_⟩
    · rw [hend]
      exact hsound.room
    · intro i hi hne
      rw [hbytes i hi, if_neg hne]
      exact hsame i hi hne
    · rw [hbytes f hlt, if_pos rfl]
  · rw [if_neg (by simp), if_pos hrc]
    exact ⟨rc, s₁, order', rfl, hsound, hsame, .inr ⟨hrc, hnone⟩⟩

theorem deleteName_spec (h : Sound s order) (hgrow : host.Grows) {name : String} (hname : getFileNr name = some f) :
    ∃ rc s' order', s.deleteName host name = some (rc, s') ∧ Sound s' order' ∧ SameBut s s' f ∧
      fileBytes s'.octets f = none := by
  have hlt : f < maxStates := Nat.lt_trans (getFileNr_lt hname) (by simp [maxStates])
  simp only [deleteName, hname, h.mapped, Option.bind_eq_bind]
  rw [if_neg (by simp)]
  by_cases hmem : f ∈ order
  · obtain ⟨xs, ys, rfl⟩ := List.append_of_mem hmem
    obtain ⟨rc, s', hremove, hsound, hsame, -⟩ := removeFile_spec h hgrow true
    have hnd := h.laid.nodup
    rw [List.nodup_append, List.nodup_cons] at hnd
    have hnot : f ∉ xs ++ ys := fun hin => (List.mem_append.mp hin).elim
      (fun hx => hnd.2.2 f hx f List.mem_cons_self rfl) hnd.2.1.1
    rw [hremove]
    exact ⟨_, s', xs ++ ys, rfl, hsound, hsame, hsound.fileBytes_eq_none hlt hnot⟩
  · rw [removeFile_absent h hlt hmem]
    exact ⟨_, s, order, rfl, h, SameBut.refl, h.fileBytes_eq_none hlt hmem⟩

/-! ## Runs -/

/-- What the file or device is before it is first used: not a store. -/
structure Blank (s : LinearStore) : Prop where
  foreign : fromLe (load s.octets 0 8) ≠ magic
  ends : ∀ k, s.size ≤ k → s.octets k = 0
  addressable : s.size < 2 ^ 32
  room : headerSize ≤ s.size ∨ s.canTruncate = true

/-- The header that `SWTPM_NVRAM_Prepare_Linear` writes. -/
theorem laid_format (m : Memory) :
    Laid (store (store (store m 0 (le 8 magic ++ [1])) 10 (le 2 headerSize)) 12 (List.replicate 180 0)) [] := by
  have hfirst := Holds.append_iff.mp (Holds.store_self m 0 (le 8 magic ++ [1]))
  rw [le_length] at hfirst
  refine ⟨⟨?_, ?_, ?_⟩, List.nodup_nil, fun i hi => absurd hi List.not_mem_nil, ?_, trivial,
    fun i hi => absurd hi List.not_mem_nil, fun i hi => absurd hi List.not_mem_nil,
    fun i hi => absurd hi List.not_mem_nil⟩
  · have hmagic : load (store m 0 (le 8 magic ++ [1])) 0 8 = le 8 magic := by
      have hload : load (store m 0 (le 8 magic ++ [1])) 0 (le 8 magic).length = le 8 magic := hfirst.1
      rwa [le_length] at hload
    rw [load_store_disjoint (.inl (by omega)), load_store_disjoint (.inl (by omega)), hmagic,
      fromLe_le (by simp [magic])]
  · have hversion : load (store m 0 (le 8 magic ++ [1])) 8 1 = [1] := hfirst.2
    rw [load_store_disjoint (.inl (by omega)), load_store_disjoint (.inl (by omega)), hversion]
    exact Nat.le_refl 1
  · have hsize := load_store_eq (m := store m 0 (le 8 magic ++ [1])) (a := 10) (le_length 2 headerSize).symm
    rw [hdrsize, load_store_disjoint (.inl (by omega)), hsize, fromLe_le (by simp [headerSize])]
  · intro i hi
    refine iff_of_false (not_not.mpr ?_) List.not_mem_nil
    have hat := fileAt_bounds hi
    have hzero : load (store (store (store m 0 (le 8 magic ++ [1])) 10 (le 2 headerSize)) 12 (List.replicate 180 0))
        (fileAt i) 4 = load (fun _ => 0) (fileAt i) 4 := by
      apply load_congr
      intro k hlo hhi
      simp only [headerSize] at hat
      rw [store, if_pos (by rw [List.length_replicate]; omega), List.getD_replicate _ (by omega)]
    rw [file, hzero]
    rfl

theorem prepare_blank (h : Blank s) (hgrow : host.Grows) : ∃ s', s.prepare host = (.success, s') ∧ Sound s' [] := by
  have hmmap : ∃ s₁ : LinearStore, s.mmap host = (.success, s₁) ∧ s₁.octets = s.octets ∧ headerSize ≤ s₁.size ∧
      s₁.size < 2 ^ 32 ∧ s₁.mapped = true := by
    by_cases hsize : headerSize ≤ s.size
    · exact ⟨{ s with mapped := true }, if_pos hsize, rfl, hsize, h.addressable, rfl⟩
    · have htrunc := h.room.resolve_left hsize
      refine ⟨{ s with octets := clip s.octets s.size, size := headerSize, mapped := true }, ?_, ?_, Nat.le_refl _,
        by simp [headerSize], rfl⟩
      · rw [mmap, if_neg hsize, if_pos ⟨htrunc, hgrow _ _ (Nat.lt_of_not_le hsize)⟩]
      · funext k
        dsimp only
        rw [clip]
        split
        · rfl
        · rename_i hk
          exact (h.ends k (Nat.le_of_not_lt hk)).symm
  obtain ⟨s₁, hmap, hoct, hsize, haddr, hmapped⟩ := hmmap
  have hforeign := h.foreign
  rw [← hoct] at hforeign
  simp only [prepare, hmap]
  rw [if_neg (not_not.mpr rfl), if_pos hforeign]
  refine ⟨_, rfl, laid_format _, hmapped, ?_, Nat.le_refl _, haddr⟩
  simpa [filesEnd] using hsize

theorem prepare_restart (host : LinearHost) (h : Sound s order) : ∃ s', prepare host { s with mapped := false } = (.success, s') ∧
    Sound s' order ∧ s'.octets = s.octets := by
  have hmap : mmap host { s with mapped := false } = (.success, { s with mapped := true }) := if_pos h.headerSize_le
  have hversion := h.laid.formatted.version
  simp only [prepare, hmap]
  rw [if_neg (not_not.mpr rfl), if_neg (not_not.mpr h.laid.formatted.magic), if_neg (Nat.not_lt.mpr hversion)]
  exact ⟨_, rfl, ⟨h.laid, rfl, Nat.le_trans h.room h.within, Nat.le_refl _, h.addressable⟩, rfl⟩

/-- What lies under a name. -/
def contents (s : LinearStore) (name : String) : Option Bytes := (getFileNr name).bind (fileBytes s.octets)

theorem loadData_eq (h : Sound s order) {name : String} (hname : getFileNr name = some f) :
    s.loadData name = some ((s.contents name).elim (.error .retry) .ok) := by
  have hlt : f < maxStates := Nat.lt_trans (getFileNr_lt hname) (by simp [maxStates])
  simp only [loadData, contents, hname, h.mapped, Option.bind_some]
  rw [if_neg (by simp)]
  by_cases hmem : f ∈ order
  · have hb := h.laid.bounds hmem
    have hd := h.laid.data f hmem
    have hend := h.laid.filesEnd_lt
    have hroom := h.room
    have hwithin := h.within
    have hin : s.reaches (file s.octets f).offset (file s.octets f).dataLength = true := by
      rw [reaches, h.mapped, Bool.true_and, decide_eq_true_iff]
      omega
    rw [if_neg ((h.laid.allocated f hlt).mpr hmem), w32_of_lt (by omega), if_neg (by omega), if_pos hin,
      h.laid.fileBytes_of_mem hmem]
    rfl
  · have hoff : (file s.octets f).offset = 0 := not_not.mp fun hne => hmem ((h.laid.allocated f hlt).mp hne)
    rw [if_pos hoff, h.laid.fileBytes_of_not_mem hlt hmem]
    rfl

theorem loadData_stored (h : Sound s order) {name : String} {filedata : Bytes}
    (hcontents : s.contents name = some filedata) : s.loadData name = some (.ok filedata) := by
  cases hname : getFileNr name with
  | none =>
      rw [contents, hname, Option.bind_none] at hcontents
      cases hcontents
  | some f =>
      rw [loadData_eq h hname, hcontents]
      rfl

theorem checkState_eq (h : Sound s order) {name : String} (hname : getFileNr name = some f) :
    s.checkState name = some ((s.contents name).elim (.error .retry) fun filedata => .ok filedata.length) := by
  have hlt : f < maxStates := Nat.lt_trans (getFileNr_lt hname) (by simp [maxStates])
  simp only [checkState, contents, hname, h.mapped, Option.bind_some]
  rw [if_neg (by simp)]
  by_cases hmem : f ∈ order
  · rw [if_neg ((h.laid.allocated f hlt).mpr hmem), h.laid.fileBytes_of_mem hmem, Option.elim_some, load_length]
  · have hoff : (file s.octets f).offset = 0 := not_not.mp fun hne => hmem ((h.laid.allocated f hlt).mp hne)
    rw [if_pos hoff, h.laid.fileBytes_of_not_mem hlt hmem, Option.elim_none]

theorem contents_update (h : SameBut s s' f) {name : String} (hname : getFileNr name = some f) :
    s'.contents = Function.update s.contents name (fileBytes s'.octets f) := by
  funext name'
  by_cases heq : name' = name
  · subst heq
    rw [Function.update_self, contents, hname, Option.bind_some]
  · rw [Function.update_of_ne heq]
    cases hname' : getFileNr name' with
    | none => rw [contents, contents, hname', Option.bind_none, Option.bind_none]
    | some g =>
        have hne : g ≠ f := by
          rintro rfl
          exact heq (getFileNr_inj hname' hname)
        rw [contents, contents, hname', Option.bind_some, Option.bind_some]
        exact h g (Nat.lt_trans (getFileNr_lt hname') (by simp [maxStates])) hne

end LinearStore

/-- A call of the backend; a restart ends the process and prepares the store in the next. -/
inductive LinearOp where
  | store (name : String) (filedata : Bytes)
  | delete (name : String)
  | restart

/-- The sizes for which nothing wraps around: state blobs are neither empty nor a gigabyte long. -/
def LinearOp.Fits : LinearOp → Prop
  | .store _ filedata => 0 < filedata.length ∧ filedata.length ≤ 2 ^ 30
  | _ => True

def LinearOp.apply (host : LinearHost) : LinearOp → LinearStore → Option (TpmResult × LinearStore)
  | .store name filedata, s => s.storeData host name filedata
  | .delete name, s => s.deleteName host name
  | .restart, s => some (LinearStore.prepare host { s with mapped := false })

/-- The results of the calls, each with what its host says, and where they lead. -/
def linearRun : LinearStore → List (LinearHost × LinearOp) → Option (List TpmResult × LinearStore)
  | s, [] => some ([], s)
  | s, e :: es => do
      let (rc, s) ← e.2.apply e.1 s
      let (rcs, s) ← linearRun s es
      pure (rc :: rcs, s)

/-- What a call may do to named files. -/
inductive FileStep : LinearOp → TpmResult → (String → Option Bytes) → (String → Option Bytes) → Prop
  | stored {name filedata rc files} :
      FileStep (.store name filedata) rc files (Function.update files name (some filedata))
  | lost {name filedata rc files} (hrc : rc ≠ .success) :
      FileStep (.store name filedata) rc files (Function.update files name none)
  | unknown {name filedata files} (hname : LinearStore.getFileNr name = none) :
      FileStep (.store name filedata) .fail files files
  | deleted {name rc files} : FileStep (.delete name) rc files (Function.update files name none)
  | unknownDeleted {name files} (hname : LinearStore.getFileNr name = none) :
      FileStep (.delete name) .fail files files
  | restarted {files} : FileStep .restart .success files files

inductive FileRun : (String → Option Bytes) → List LinearOp → List TpmResult → (String → Option Bytes) → Prop
  | nil {files} : FileRun files [] [] files
  | cons {files files' files'' op rc ops rcs} (h : FileStep op rc files files') (hrest : FileRun files' ops rcs files'') :
      FileRun files (op :: ops) (rc :: rcs) files''

namespace LinearStore
variable {host : LinearHost} {s : LinearStore} {order : List Nat}

theorem apply_spec (h : Sound s order) (hgrow : host.Grows) {op : LinearOp} (hfits : op.Fits) :
    ∃ rc s' order', op.apply host s = some (rc, s') ∧ Sound s' order' ∧ FileStep op rc s.contents s'.contents := by
  cases op with
  | store name filedata =>
      cases hname : getFileNr name with
      | none =>
          refine ⟨.fail, s, order, ?_, h, .unknown hname⟩
          simp only [LinearOp.apply, storeData, hname]
      | some f =>
          obtain ⟨rc, s', order', heq, hsound, hsame, hbytes⟩ := storeData_spec h hgrow hname hfits.1 hfits.2
          refine ⟨rc, s', order', heq, hsound, ?_⟩
          rw [contents_update hsame hname]
          rcases hbytes with hb | ⟨hrc, hb⟩
          · rw [hb]
            exact .stored
          · rw [hb]
            exact .lost hrc
  | delete name =>
      cases hname : getFileNr name with
      | none =>
          refine ⟨.fail, s, order, ?_, h, .unknownDeleted hname⟩
          simp only [LinearOp.apply, deleteName, hname]
      | some f =>
          obtain ⟨rc, s', order', heq, hsound, hsame, hbytes⟩ := deleteName_spec h hgrow hname
          refine ⟨rc, s', order', heq, hsound, ?_⟩
          rw [contents_update hsame hname, hbytes]
          exact .deleted
  | restart =>
      obtain ⟨s', heq, hsound, hoct⟩ := prepare_restart host h
      refine ⟨.success, s', order, congrArg some heq, hsound, ?_⟩
      have hsame : s'.contents = s.contents := by
        funext name
        rw [contents, contents, hoct]
      rw [hsame]
      exact .restarted

theorem linearRun_spec {ops : List (LinearHost × LinearOp)} (h : Sound s order)
    (hops : ∀ e ∈ ops, e.1.Grows ∧ e.2.Fits) : ∃ rcs s' order', linearRun s ops = some (rcs, s') ∧ Sound s' order' ∧
      FileRun s.contents (ops.map Prod.snd) rcs s'.contents := by
  induction ops generalizing s order with
  | nil => exact ⟨[], s, order, rfl, h, .nil⟩
  | cons e es ih =>
      obtain ⟨hgrow, hfits⟩ := hops e List.mem_cons_self
      obtain ⟨rc, s₁, order₁, heq, hsound₁, hstep⟩ := apply_spec h hgrow hfits
      obtain ⟨rcs, s', order', hrun, hsound, hrest⟩ := ih hsound₁ fun e' he' => hops e' (List.mem_cons_of_mem e he')
      refine ⟨rc :: rcs, s', order', ?_, hsound, .cons hstep hrest⟩
      simp only [linearRun, heq, hrun, Option.bind_eq_bind, Option.bind_some]
      rfl

theorem contents_nil (h : Sound s []) : s.contents = fun _ => none := by
  funext name
  cases hname : getFileNr name with
  | none => rw [contents, hname, Option.bind_none]
  | some f =>
      rw [contents, hname, Option.bind_some]
      exact h.fileBytes_eq_none (Nat.lt_trans (getFileNr_lt hname) (by simp [maxStates])) List.not_mem_nil

end LinearStore

/-- **Main result.** Whatever fails on the way, no call reaches outside the map, and the names hold what the calls
in their order may have left there. -/
theorem linearStore_run {s : LinearStore} (hblank : s.Blank) {host : LinearHost} (hgrow : host.Grows)
    {ops : List (LinearHost × LinearOp)} (hops : ∀ e ∈ ops, e.1.Grows ∧ e.2.Fits) :
    ∃ rcs s', linearRun (s.prepare host).2 ops = some (rcs, s') ∧
      FileRun (fun _ => none) (ops.map Prod.snd) rcs s'.contents ∧
      ∀ name, LinearStore.getFileNr name ≠ none →
        s'.loadData name = some ((s'.contents name).elim (.error .retry) .ok) ∧
          s'.checkState name = some ((s'.contents name).elim (.error .retry) fun filedata => .ok filedata.length) := by
  obtain ⟨s₀, hprepare, hsound₀⟩ := LinearStore.prepare_blank hblank hgrow
  obtain ⟨rcs, s', order, hrun, hsound, hfiles⟩ := LinearStore.linearRun_spec hsound₀ hops
  rw [LinearStore.contents_nil hsound₀] at hfiles
  refine ⟨rcs, s', ?_, hfiles, ?_⟩
  · rw [hprepare]
    exact hrun
  · intro name hname
    obtain ⟨f, hf⟩ := Option.ne_none_iff_exists'.mp hname
    exact ⟨LinearStore.loadData_eq hsound hf, LinearStore.checkState_eq hsound hf⟩

/-- The call is about another file. -/
def LinearOp.Spares (name : String) : LinearOp → Prop
  | .store name' _ => name' ≠ name
  | .delete name' => name' ≠ name
  | .restart => True

theorem FileStep.spares {op : LinearOp} {rc : TpmResult} {files files' : String → Option Bytes} {name : String}
    (h : FileStep op rc files files') (hop : op.Spares name) : files' name = files name := by
  cases h with
  | stored => exact Function.update_of_ne hop.symm _ _
  | lost hrc => exact Function.update_of_ne hop.symm _ _
  | unknown hname => rfl
  | deleted => exact Function.update_of_ne hop.symm _ _
  | unknownDeleted hname => rfl
  | restarted => rfl

theorem FileStep.success {name : String} {filedata : Bytes} {files files' : String → Option Bytes}
    (h : FileStep (.store name filedata) .success files files') : files' name = some filedata := by
  cases h with
  | stored => exact Function.update_self _ _ _
  | lost hne => exact absurd rfl hne

/-- What holds of every file holds of what a call stores. -/
theorem FileStep.every {P : Bytes → Prop} {op : LinearOp} {rc : TpmResult} {files files' : String → Option Bytes}
    (h : FileStep op rc files files') (hfiles : ∀ name filedata, files name = some filedata → P filedata)
    (hop : ∀ name filedata, op = .store name filedata → P filedata) :
    ∀ name filedata, files' name = some filedata → P filedata := by
  have hnone : ∀ name name' filedata, Function.update files name none name' = some filedata → P filedata := by
    intro name name' filedata hsome
    by_cases hname : name' = name
    · subst hname
      rw [Function.update_self] at hsome
      cases hsome
    · rw [Function.update_of_ne hname] at hsome
      exact hfiles name' filedata hsome
  cases h with
  | @stored name stored =>
      intro name' filedata hsome
      by_cases hname : name' = name
      · subst hname
        rw [Function.update_self] at hsome
        obtain rfl := Option.some.inj hsome
        exact hop name' stored rfl
      · rw [Function.update_of_ne hname] at hsome
        exact hfiles name' filedata hsome
  | lost => exact hnone _
  | unknown => exact hfiles
  | deleted => exact hnone _
  | unknownDeleted => exact hfiles
  | restarted => exact hfiles

theorem FileRun.spares {ops : List LinearOp} {rcs : List TpmResult} {files files' : String → Option Bytes}
    {name : String} (h : FileRun files ops rcs files') (hops : ∀ op ∈ ops, op.Spares name) :
    files' name = files name := by
  induction h with
  | nil => rfl
  | cons hstep hrest ih =>
      have hlater := ih fun op hop => hops op (List.mem_cons_of_mem _ hop)
      rw [hlater]
      exact hstep.spares (hops _ List.mem_cons_self)

theorem FileRun.append {xs ys : List LinearOp} {rcs : List TpmResult} {files files' : String → Option Bytes}
    (h : FileRun files (xs ++ ys) rcs files') : ∃ rxs rys files₁, rcs = rxs ++ rys ∧ rxs.length = xs.length ∧
      FileRun files xs rxs files₁ ∧ FileRun files₁ ys rys files' := by
  induction xs generalizing files rcs with
  | nil => exact ⟨[], rcs, files, rfl, rfl, .nil, h⟩
  | cons x xs ih =>
      cases h with
      | cons hstep hrest =>
          obtain ⟨rxs, rys, files₁, hrcs, hlen, hxs, hys⟩ := ih hrest
          exact ⟨_ :: rxs, rys, files₁, congrArg _ hrcs, congrArg Nat.succ hlen, .cons hstep hxs, hys⟩

/-- **Main result.** A file that was stored with success is loaded as it was stored, whatever happens to the other
files and however often the process restarts. -/
theorem linearStore_keeps {s : LinearStore} (hblank : s.Blank) {host : LinearHost} (hgrow : host.Grows)
    {before after : List (LinearHost × LinearOp)} {e : LinearHost} {name : String} {filedata : Bytes}
    (hops : ∀ e' ∈ before ++ (e, .store name filedata) :: after, e'.1.Grows ∧ e'.2.Fits)
    (hafter : ∀ e' ∈ after, e'.2.Spares name) {rcs : List TpmResult} {s' : LinearStore}
    (hrun : linearRun (s.prepare host).2 (before ++ (e, .store name filedata) :: after) = some (rcs, s'))
    (hrc : rcs[before.length]? = some .success) : s'.loadData name = some (.ok filedata) := by
  obtain ⟨s₀, hprepare, hsound₀⟩ := LinearStore.prepare_blank hblank hgrow
  obtain ⟨rcs', s'', order, hrun', hsound, hfiles⟩ := LinearStore.linearRun_spec hsound₀ hops
  rw [hprepare] at hrun
  obtain ⟨rfl, rfl⟩ := Prod.mk.inj (Option.some.inj (hrun'.symm.trans hrun))
  rw [List.map_append, List.map_cons] at hfiles
  obtain ⟨rxs, rys, files₁, rfl, hlen, -, hlast⟩ := hfiles.append
  rw [List.length_map] at hlen
  rw [List.getElem?_append_right (Nat.le_of_eq hlen), hlen, Nat.sub_self] at hrc
  cases hlast with
  | cons hstep hrest =>
      obtain rfl := Option.some.inj hrc
      have hkept := hrest.spares fun op hop => by
        obtain ⟨e', he', rfl⟩ := List.mem_map.mp hop
        exact hafter e' he'
      rw [hstep.success] at hkept
      exact LinearStore.loadData_stored hsound hkept

/-! ## A new file -/

/-- A new file. -/
def newFile : LinearStore where
  octets := fun _ => 0
  size := 0
  canTruncate := true
  mapped := false
  length := 0

def willing : LinearHost where
  truncate := fun _ _ => true
  resizeSync := true
  headerSync := true
  dataSync := true

def unsynced : LinearHost := { willing with resizeSync := false }

def linearScript : List (LinearHost × LinearOp) :=
  [(willing, .store "permall" [1, 2, 3]), (willing, .store "volatilestate" [4, 5]),
    (unsynced, .store "volatilestate" [6, 7, 8, 9, 10])]

theorem newFile_blank : newFile.Blank where
  foreign := by decide +kernel
  ends _ _ := rfl
  addressable := by decide
  room := .inr rfl

theorem linearScript_admitted : ∀ e ∈ linearScript, e.1.Grows ∧ e.2.Fits := by
  intro e he
  simp only [linearScript, List.mem_cons, List.not_mem_nil, or_false] at he
  rcases he with rfl | rfl | rfl
  · exact ⟨fun _ _ _ => rfl, by decide, by decide⟩
  · exact ⟨fun _ _ _ => rfl, by decide, by decide⟩
  · exact ⟨fun _ _ _ => rfl, by decide, by decide⟩

theorem linearStore_run_script : ∃ rcs s', linearRun (newFile.prepare willing).2 linearScript = some (rcs, s') ∧
    FileRun (fun _ => none) (linearScript.map Prod.snd) rcs s'.contents ∧
    ∀ name, LinearStore.getFileNr name ≠ none →
      s'.loadData name = some ((s'.contents name).elim (.error .retry) .ok) ∧
        s'.checkState name = some ((s'.contents name).elim (.error .retry) fun filedata => .ok filedata.length) :=
  linearStore_run newFile_blank (fun _ _ _ => rfl) linearScript_admitted

theorem linearScript_results :
    (linearRun (newFile.prepare willing).2 linearScript).map Prod.fst = some [.success, .success, .fail] := by
  decide +kernel

/-- The file that had to grow is lost with the flush that failed; the other one is not. -/
theorem linearStore_keeps_script :
    (linearRun (newFile.prepare willing).2 linearScript).bind (fun r => r.2.loadData "permall") =
      some (.ok [1, 2, 3]) := by
  obtain ⟨⟨rcs, s'⟩, hrun, hrcs⟩ := Option.map_eq_some_iff.mp linearScript_results
  obtain rfl : rcs = [.success, .success, .fail] := hrcs
  rw [hrun, Option.bind_some]
  apply @linearStore_keeps newFile newFile_blank willing (fun _ _ _ => rfl) []
    [(willing, .store "volatilestate" [4, 5]), (unsynced, .store "volatilestate" [6, 7, 8, 9, 10])] willing "permall"
    [1, 2, 3] linearScript_admitted _ _ s' hrun rfl
  intro e he
  simp only [List.mem_cons, List.not_mem_nil, or_false] at he
  rcases he with rfl | rfl
  · exact (by decide : "volatilestate" ≠ "permall")
  · exact (by decide : "volatilestate" ≠ "permall")

end PqcTpm
