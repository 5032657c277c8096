import XbdmGdbBridge.Proofs.Requests
import XbdmGdbBridge.Shell.SyncFile

/-!
# Files that are kept up to date

A timestamp that was requested comes back with something added to its low bits, as two words of
hexadecimal digits. Nothing of that changes the stamp.
-/

namespace XbdmGdbBridge.Proofs.FileSync

open Lib Program CText Rdcp FileUtil

section Stamps

theorem foldTimestamp_of_lt {t : UInt64} (h : kMaxTimestamp < t) :
    foldTimestamp t = foldTimestamp (t - kTimeRange) := by
  rw [foldTimestamp, if_pos h]

theorem foldTimestamp_of_le {t : UInt64} (h : ¬kMaxTimestamp < t) : foldTimestamp t = t := by
  rw [foldTimestamp, if_neg h]

theorem foldTimestamp_le (t : UInt64) : foldTimestamp t ≤ kMaxTimestamp := by
  induction t using foldTimestamp.induct with
  | case1 t h ih =>
    rw [foldTimestamp_of_lt h]
    exact ih
  | case2 t h =>
    rw [foldTimestamp_of_le h]
    exact UInt64.not_lt.mp h

theorem toNat_masked (t : UInt64) :
    (t &&& kUsableTimestampRange).toNat = t.toNat / 2 ^ 28 * 2 ^ 28 := by
  have hmask : kUsableTimestampRange.toNat = (2 ^ 36 - 1) * 2 ^ 28 := by decide
  rw [UInt64.toNat_and, hmask]
  apply Nat.eq_of_testBit_eq
  intro i
  simp only [Nat.testBit_and, Nat.testBit_mul_two_pow, Nat.testBit_two_pow_sub_one,
    Nat.testBit_div_two_pow]
  by_cases hlow : 28 ≤ i
  · rw [Nat.sub_add_cancel hlow]
    by_cases hhigh : i < 64
    · simp [hlow, show i - 28 < 36 by omega]
    · have hzero : t.toNat.testBit i = false :=
        Nat.testBit_lt_two_pow (t.toNat_lt.trans_le (Nat.pow_le_pow_right (by decide) (by omega)))
      simp [hzero]
  · simp [hlow]

theorem safeXFATTimestamp_eq (seconds : Int64) : ∃ t : UInt64, t ≤ kMaxTimestamp ∧
    safeXFATTimestamp seconds = t &&& kUsableTimestampRange :=
  ⟨_, foldTimestamp_le _, rfl⟩

theorem masked_later (seconds : Int64) (d : Fin (2 ^ 28)) :
    (safeXFATTimestamp seconds + UInt64.ofNat d) &&& kUsableTimestampRange =
      safeXFATTimestamp seconds := by
  obtain ⟨t, hle, ht⟩ := safeXFATTimestamp_eq seconds
  have hbound : t.toNat ≤ 0x023fffffffffffff := hle
  have hd := d.isLt
  have hstamp : (safeXFATTimestamp seconds).toNat = t.toNat / 2 ^ 28 * 2 ^ 28 := by
    rw [ht, toNat_masked]
  apply UInt64.toNat_inj.mp
  rw [toNat_masked, UInt64.toNat_add, UInt64.toNat_ofNat', hstamp]
  omega

/-- The timestamp the loop begins with. -/
def raised (seconds : Int64) : UInt64 :=
  let t := (seconds <<< 28).toUInt64
  if t < kMinTimestamp then t + kMinTimestamp else t

theorem toNat_shifted (seconds : Int64) :
    (seconds <<< 28).toUInt64.toNat = (seconds.toInt % 2 ^ 36).toNat * 2 ^ 28 := by
  have hbits : (seconds <<< 28).toUInt64.toNat = (seconds.toBitVec <<< 28).toNat := rfl
  have hint : seconds.toInt = seconds.toBitVec.toInt := rfl
  have hlt := seconds.toBitVec.isLt
  rw [hbits, hint, BitVec.toNat_shiftLeft, BitVec.toInt_eq_toNat_bmod, Nat.shiftLeft_eq]
  rw [Int.bmod_def]
  split <;> omega

theorem toNat_sub_range {t : UInt64} (h : kMaxTimestamp < t) :
    (t - kTimeRange).toNat = t.toNat - (2 ^ 55 - 1) :=
  UInt64.toNat_sub_of_le _ _ (UInt64.le_trans (by decide) (UInt64.le_of_lt h))

-- A turn subtracts one less than `2 ^ 55`, so the low bits count the turns. There are fewer than
-- `2 ^ 9` of them.
theorem foldTimestamp_spec (t : UInt64) (hmin : 0x01c0000000000000 ≤ t.toNat)
    (hlow : t.toNat % 2 ^ 28 + t.toNat / 2 ^ 55 < 2 ^ 28) :
    0x01c0000000000000 ≤ (foldTimestamp t).toNat ∧
      ∃ k, (foldTimestamp t).toNat / 2 ^ 28 + k * 2 ^ 27 = t.toNat / 2 ^ 28 := by
  induction t using foldTimestamp.induct with
  | case1 t h ih =>
    have hmax : 0x023fffffffffffff < t.toNat := h
    rw [toNat_sub_range h] at ih
    rw [foldTimestamp_of_lt h]
    obtain ⟨hle, k, hk⟩ := ih (by omega) (by omega)
    have hturn : t.toNat / 2 ^ 28 = (t.toNat - (2 ^ 55 - 1)) / 2 ^ 28 + 2 ^ 27 := by omega
    have hnext : (foldTimestamp (t - kTimeRange)).toNat / 2 ^ 28 + (k + 1) * 2 ^ 27 =
        t.toNat / 2 ^ 28 := by
      rw [hturn, ← hk, Nat.succ_mul, Nat.add_assoc]
    exact ⟨hle, _, hnext⟩
  | case2 t h =>
    rw [foldTimestamp_of_le h]
    exact ⟨hmin, 0, by omega⟩

theorem toNat_raised (seconds : Int64) :
    (raised seconds).toNat / 2 ^ 28 * 2 ^ 28 = (raised seconds).toNat ∧
      0x01c0000000000000 ≤ (raised seconds).toNat ∧
      (0x1C000000 ≤ seconds.toInt % 2 ^ 36 →
        (raised seconds).toNat / 2 ^ 28 = (seconds.toInt % 2 ^ 36).toNat) := by
  have hshift := toNat_shifted seconds
  have hmin : kMinTimestamp.toNat = 0x01c0000000000000 := by decide
  unfold raised
  dsimp only
  split
  case isTrue h =>
    have hlt : (seconds <<< 28).toUInt64.toNat < 0x01c0000000000000 := h
    rw [UInt64.toNat_add, hmin]
    omega
  case isFalse h =>
    have hle : 0x01c0000000000000 ≤ (seconds <<< 28).toUInt64.toNat := UInt64.not_lt.mp h
    omega

/-- The loop ends, after as many turns. -/
def EndsAfter (t : UInt64) (k : Nat) : Prop :=
  (∀ j < k, kMaxTimestamp < (· - kTimeRange)^[j] t) ∧
    ¬kMaxTimestamp < (· - kTimeRange)^[k] t ∧ foldTimestamp t = (· - kTimeRange)^[k] t

theorem foldTimestamp_ends (t : UInt64) : ∃ k, EndsAfter t k := by
  induction t using foldTimestamp.induct with
  | case1 t h ih =>
    obtain ⟨k, hturns, hend, hfold⟩ := ih
    refine ⟨k + 1, ?_, hend, (foldTimestamp_of_lt h).trans hfold⟩
    rintro (_ | j) hj
    · exact h
    · exact hturns j (Nat.lt_of_succ_lt_succ hj)
  | case2 t h => exact ⟨0, nofun, h, foldTimestamp_of_le h⟩

/-- The stamp is in the range and counts in steps of `2 ^ 28`; late times differ from their stamps by
multiples of the range. -/
theorem toNat_safeXFATTimestamp (seconds : Int64) :
    ∃ n, (safeXFATTimestamp seconds).toNat = n * 2 ^ 28 ∧ 0x1C000000 ≤ n ∧ n < 0x24000000 ∧
      (0x1C000000 ≤ seconds.toInt % 2 ^ 36 →
        ∃ k, n + k * 2 ^ 27 = (seconds.toInt % 2 ^ 36).toNat) := by
  obtain ⟨hlow, hmin, hlate⟩ := toNat_raised seconds
  have hlt := (raised seconds).toNat_lt
  obtain ⟨hle, k, hk⟩ := foldTimestamp_spec (raised seconds) hmin (by omega)
  have hmax : (foldTimestamp (raised seconds)).toNat ≤ 0x023fffffffffffff := foldTimestamp_le _
  refine ⟨(foldTimestamp (raised seconds)).toNat / 2 ^ 28, toNat_masked _, by omega, by omega, ?_⟩
  intro h
  exact ⟨k, hk.trans (hlate h)⟩

/-- For all times the stamp is in the range, has no low bits, and the loop ends. The stamps of two late
times are equal if the times are, but for multiples of the range. -/
theorem safeXFATTimestamp_stamps (s s' : Int64) :
    (kMinTimestamp ≤ safeXFATTimestamp s ∧ safeXFATTimestamp s ≤ kMaxTimestamp) ∧
    (safeXFATTimestamp s).toNat % 2 ^ 28 = 0 ∧
    (∃ k, EndsAfter (raised s) k) ∧
    (0x1C000000 ≤ s.toInt % 2 ^ 36 → 0x1C000000 ≤ s'.toInt % 2 ^ 36 →
      (safeXFATTimestamp s = safeXFATTimestamp s' ↔ s.toInt ≡ s'.toInt [ZMOD 2 ^ 27])) := by
  obtain ⟨n, hn, hmin, hmax, hlate⟩ := toNat_safeXFATTimestamp s
  obtain ⟨n', hn', hmin', hmax', hlate'⟩ := toNat_safeXFATTimestamp s'
  refine ⟨⟨?_, ?_⟩, ?_, foldTimestamp_ends _, ?_⟩
  · exact show 0x01c0000000000000 ≤ (safeXFATTimestamp s).toNat by omega
  · exact show (safeXFATTimestamp s).toNat ≤ 0x023fffffffffffff by omega
  · omega
  · intro h h'
    obtain ⟨k, hk⟩ := hlate h
    obtain ⟨k', hk'⟩ := hlate' h'
    rw [← UInt64.toNat_inj, Int.ModEq]
    omega

theorem safeXFATTimestamp_again : safeXFATTimestamp 0x1C000000 = safeXFATTimestamp 0x24000000 :=
  ((safeXFATTimestamp_stamps 0x1C000000 0x24000000).2.2.2 (by decide) (by decide)).mpr (by decide)

end Stamps

section Reports

theorem parseInt32_hexString (n : UInt32) : Notifications.parseInt32 (hexString n) = n.toInt32 := by
  have hlt := n.toNat_lt
  obtain ⟨length, hscan⟩ := @scanNumber_hexString n [] nofun
  rw [List.append_nil] at hscan
  unfold Notifications.parseInt32 strtol
  rw [hscan]
  simp only [Bool.false_eq_true, if_false]
  rw [min_eq_right (by omega), max_eq_right (by omega)]
  apply Int32.toBitVec_inj.mp
  simp

/-- The halves of a number, the high one with a sign, joined again. -/
theorem halves_joined (n : UInt64) :
    (((n >>> 32).toUInt32.toInt32.toInt64 <<< 32) + n.toUInt32.toUInt64.toInt64).toUInt64 = n := by
  have hjoin (x : BitVec 64) : BitVec.signExtend 64 (BitVec.setWidth 32 (x >>> 32)) <<< 32 +
      BitVec.setWidth 64 (BitVec.setWidth 32 x) = x := by
    have hx := x.isLt
    apply BitVec.eq_of_toNat_eq
    simp only [BitVec.toNat_add, BitVec.toNat_shiftLeft, BitVec.toNat_signExtend,
      BitVec.toNat_setWidth, BitVec.toNat_ushiftRight, Nat.shiftLeft_eq, Nat.shiftRight_eq_div_pow]
    split <;> omega
  exact UInt64.toBitVec_inj.mp (hjoin n.toBitVec)

theorem getQWORD_halves {r : RDCPMapResponse} {low high : Bytes} {n : UInt64}
    (hlow : r.map.lookup (toLowerCopy low) = some (hexString n.toUInt32))
    (hhigh : r.map.lookup (toLowerCopy high) = some (hexString (n >>> 32).toUInt32)) :
    (r.getQWORD low high).toUInt64 = n := by
  have hparse : RDCPMapResponse.parseUint32 (hexString n.toUInt32) = n.toUInt32 := by
    have h := @parseUint32_hexString n.toUInt32 [] nofun
    rwa [List.append_nil] at h
  rw [RDCPMapResponse.getQWORD, hlow, hhigh]
  dsimp only
  rw [hparse, parseInt32_hexString, halves_joined]

theorem ofReport_report (f : RemoteFile) :
    RemoteInfo.ofReport f.report =
      ⟨true, f.isDirectory, UInt64.ofNat f.data.length, f.create, f.change⟩ := by
  have hdirectory : f.report.valuelessKeys.contains (ascii "directory") = f.isDirectory := by
    unfold RemoteFile.report
    cases f.isDirectory <;> rfl
  rw [RemoteInfo.ofReport, hdirectory, getQWORD_halves rfl rfl, getQWORD_halves rfl rfl,
    getQWORD_halves rfl rfl]

end Reports

section Syncing

variable {file : LocalFile} {path : Bytes} {r r' : Remote}

/-- A file was sent between the two states. -/
def Sends (r r' : Remote) : Prop :=
  ∃ p data, SyncRequest.sendFile p data ∈ r'.requests.drop r.requests.length

theorem sends_iff {extra : List SyncRequest} (h : r'.requests = r.requests ++ extra) :
    Sends r r' ↔ ∃ p data, SyncRequest.sendFile p data ∈ extra := by
  rw [Sends, h, List.drop_left]

/-- The remote file has the stamp and the size of the local one. -/
def Same (file : LocalFile) (f : RemoteFile) : Prop :=
  safeXFATTimestamp file.seconds = f.change &&& kUsableTimestampRange ∧
    UInt64.ofNat f.data.length = file.size

/-- There is a remote file, and it is as the local one. -/
def Current (file : LocalFile) (remote : Option RemoteFile) : Prop :=
  ∃ f, remote = some f ∧ Same file f

/-- The remote once a file has been sent and its timestamps set. -/
def uploaded (file : LocalFile) (path : Bytes) (r : Remote) : Remote :=
  let stamp := safeXFATTimestamp file.seconds
  let received := (r.log (.sendFile path file.data)).update path (Remote.receive file.data)
  (received.log (.setFileAttributes path stamp stamp)).update path
    (Remote.stamp (received.later stamp) (received.later stamp))

theorem upload_run (file : LocalFile) (path : Bytes) (r : Remote) :
    ∃ r', uploadFileWithoutChecking file path true r =
        (r.grants r.requests.length && r.grants (r.requests.length + 1), r') ∧
      (∃ extra, r'.requests =
        r.requests ++ .sendFile (ensureXFATStylePath path) file.data :: extra) ∧
      (r.grants r.requests.length && r.grants (r.requests.length + 1) →
        r' = uploaded file (ensureXFATStylePath path) r) := by
  have hcount : (r.requests ++ [SyncRequest.sendFile (ensureXFATStylePath path) file.data]).length =
      r.requests.length + 1 := List.length_append
  unfold uploadFileWithoutChecking
  rw [run_bind, sendFileTo, Remote.granted]
  cases r.grants r.requests.length with
  | false => exact ⟨_, rfl, ⟨[], rfl⟩, nofun⟩
  | true =>
    dsimp only
    rw [if_pos rfl]
    dsimp only
    rw [if_pos rfl, if_pos rfl, setTimestamps]
    have hgranted : ((r.log (.sendFile (ensureXFATStylePath path) file.data)).update
        (ensureXFATStylePath path) (Remote.receive file.data)).granted =
        r.grants (r.requests.length + 1) := congrArg r.grants hcount
    rw [hgranted]
    cases r.grants (r.requests.length + 1) with
    | false => exact ⟨_, rfl, ⟨[_], List.append_assoc _ _ _⟩, nofun⟩
    | true => exact ⟨_, rfl, ⟨[_], List.append_assoc _ _ _⟩, fun _ => rfl⟩

/-- The file is where it was sent, and no other one has changed. -/
theorem files_uploaded (file : LocalFile) (path : Bytes) (r : Remote) :
    ∃ t, t &&& kUsableTimestampRange = safeXFATTimestamp file.seconds ∧
      ∀ k, (uploaded file path r).files k =
        if k = r.key path then
          some ⟨file.data.take (UInt32.ofNat file.data.length).toNat, t, t, false⟩
        else r.files k := by
  refine ⟨_, masked_later file.seconds
    (r.drift (r.requests ++ [SyncRequest.sendFile path file.data]).length), fun k => ?_⟩
  by_cases hk : k = r.key path
  · simp [uploaded, Remote.update, Remote.log, Remote.receive, Remote.stamp, Remote.later, hk]
  · simp [uploaded, Remote.update, Remote.log, hk]

/-- What a path leads to is not a directory. -/
def NoDirectory (path : Bytes) (r : Remote) : Prop :=
  ∀ f, r.files (r.key path) = some f → f.isDirectory = false

theorem checkRemotePath_some {f : RemoteFile} (h : r.files (r.key path) = some f) :
    checkRemotePath path r = (⟨true, f.isDirectory, UInt64.ofNat f.data.length, f.create, f.change⟩,
      r.log (.getFileAttributes path)) := by
  rw [checkRemotePath, h]
  exact congrArg (·, _) (ofReport_report f)

theorem checkRemotePath_none (h : r.files (r.key path) = none) :
    checkRemotePath path r = (⟨false, false, 0, 0, 0⟩, r.log (.getFileAttributes path)) := by
  rw [checkRemotePath, h]

theorem syncFile_cases (file : LocalFile) (h : NoDirectory path r) :
    (Current file (r.files (r.key path)) ∧
      syncFile file path r = (true, r.log (.getFileAttributes path))) ∨
    (¬Current file (r.files (r.key path)) ∧
      syncFile file path r =
        uploadFileWithoutChecking file path true (r.log (.getFileAttributes path))) := by
  unfold syncFile
  cases hfile : r.files (r.key path) with
  | none =>
    rw [run_bind, checkRemotePath_none hfile]
    refine .inr ⟨?_, rfl⟩
    rintro ⟨f, hf, -⟩
    cases hf
  | some f =>
    rw [run_bind, checkRemotePath_some hfile, h f hfile]
    dsimp only
    rw [if_neg (by decide), syncChecked]
    dsimp only
    rw [if_neg (by decide)]
    split
    case isTrue hsame => exact .inl ⟨⟨f, rfl, hsame⟩, rfl⟩
    case isFalse hsame =>
      refine .inr ⟨?_, rfl⟩
      rintro ⟨g, hg, hsame'⟩
      cases hg
      exact hsame hsame'

/-- A file is sent unless the remote one is as the local one. -/
theorem sends_syncFile_iff (file : LocalFile) (h : NoDirectory path r) :
    Sends r (syncFile file path r).2 ↔ ¬Current file (r.files (r.key path)) := by
  rcases syncFile_cases file h with ⟨hcurrent, hrun⟩ | ⟨hcurrent, hrun⟩
  · rw [hrun, @sends_iff r (r.log _) [.getFileAttributes path] rfl]
    refine iff_of_false ?_ (not_not.mpr hcurrent)
    rintro ⟨p, data, hmem⟩
    cases List.mem_singleton.mp hmem
  · obtain ⟨r', hupload, ⟨extra, hextra⟩, -⟩ :=
      upload_run file path (r.log (.getFileAttributes path))
    rw [hrun, hupload]
    refine iff_of_true ?_ hcurrent
    rw [@sends_iff r r' (.getFileAttributes path :: .sendFile (ensureXFATStylePath path) file.data ::
      extra) (by rw [hextra]; exact List.append_assoc _ _ _)]
    exact ⟨_, _, List.mem_cons_of_mem _ List.mem_cons_self⟩

/-- A file of another size or with another stamp is noticed. -/
def Detects (file : LocalFile) (path : Bytes) (r : Remote) : Prop :=
  ∀ file' : LocalFile, file'.data.length ≠ file.data.length ∨
    safeXFATTimestamp file'.seconds ≠ safeXFATTimestamp file.seconds →
    Sends r (syncFile file' path r).2

theorem not_same_of_changed {file' : LocalFile} {f : RemoteFile} (h : Same file f)
    (hchanged : file'.data.length ≠ file.data.length ∨
      safeXFATTimestamp file'.seconds ≠ safeXFATTimestamp file.seconds) : ¬Same file' f := by
  rintro ⟨hstamp, hsize⟩
  have hlengths : UInt64.ofNat file'.data.length = UInt64.ofNat file.data.length :=
    hsize.symm.trans h.2
  rcases hchanged with hlength | hstamp'
  · have heq := congrArg UInt64.toNat hlengths
    rw [UInt64.toNat_ofNat_of_lt' file'.size_lt, UInt64.toNat_ofNat_of_lt' file.size_lt] at heq
    exact hlength heq
  · exact hstamp' (hstamp.trans h.1.symm)

theorem detects_of_current (h : NoDirectory path r) (hcurrent : Current file (r.files (r.key path))) :
    Detects file path r := by
  intro file' hchanged
  obtain ⟨f, hf, hsame⟩ := hcurrent
  rw [sends_syncFile_iff file' h]
  rintro ⟨g, hg, hsame'⟩
  cases hf.symm.trans hg
  exact not_same_of_changed hsame hchanged hsame'

/-- After the first synchronisation there is nothing to send, and a change is sent, before and after
a second one. -/
def Settles (file : LocalFile) (path : Bytes) (r : Remote) : Prop :=
  let first := syncFile file path r
  let second := syncFile file path first.2
  first.1 = true →
    ¬Sends first.2 second.2 ∧ Detects file path first.2 ∧ Detects file path second.2

/-- It depends on what the first synchronisation leaves behind. -/
theorem settles_iff_current (h : NoDirectory path (syncFile file path r).2) :
    Settles file path r ↔ ((syncFile file path r).1 = true →
      Current file ((syncFile file path r).2.files ((syncFile file path r).2.key path))) := by
  refine imp_congr_right fun _ => ?_
  rw [sends_syncFile_iff file h, not_not]
  refine ⟨And.left, fun hcurrent => ⟨hcurrent, detects_of_current h hcurrent, ?_⟩⟩
  rcases syncFile_cases file h with ⟨-, hrun⟩ | ⟨hstale, -⟩
  · rw [hrun]
    exact detects_of_current h hcurrent
  · exact absurd hcurrent hstale

/-- A file that was sent is found again if its path is written as the remote's are, and if its
length fits the request. -/
theorem current_uploaded_iff (hstale : ¬Current file (r.files (r.key path))) :
    Current file ((uploaded file (ensureXFATStylePath path) r).files (r.key path)) ↔
      r.key (ensureXFATStylePath path) = r.key path ∧ file.data.length < 2 ^ 32 := by
  obtain ⟨t, hstamp, hfiles⟩ := files_uploaded file (ensureXFATStylePath path) r
  rw [hfiles]
  split
  case isTrue hkey =>
    have hlength : UInt64.ofNat (file.data.take (UInt32.ofNat file.data.length).toNat).length =
        UInt64.ofNat file.data.length ↔ file.data.length < 2 ^ 32 := by
      have hlt := file.size_lt
      rw [List.length_take, UInt32.toNat_ofNat', ← UInt64.toNat_inj, UInt64.toNat_ofNat',
        UInt64.toNat_ofNat']
      omega
    rw [and_iff_right hkey.symm, ← hlength]
    refine ⟨?_, fun hsize => ⟨_, rfl, hstamp.symm, hsize⟩⟩
    rintro ⟨f, hf, -, hsize⟩
    cases hf
    exact hsize
  case isFalse hkey =>
    exact iff_of_false hstale fun hboth => hkey hboth.1.symm

end Syncing

section Settling

variable {file : LocalFile} {path : Bytes} {r : Remote}

theorem noDirectory_uploaded (file : LocalFile) (h : NoDirectory path r) (path' : Bytes) :
    NoDirectory path (uploaded file path' r) := by
  obtain ⟨t, -, hfiles⟩ := files_uploaded file path' r
  intro f hf
  have hf' : (uploaded file path' r).files (r.key path) = some f := hf
  rw [hfiles] at hf'
  split at hf'
  case isTrue => cases hf'; rfl
  case isFalse => exact h f hf'

/-- The first synchronisation of a file that has to be sent. -/
theorem syncFile_stale (h : NoDirectory path r) (hstale : ¬Current file (r.files (r.key path))) :
    (syncFile file path r).1 =
        (r.grants (r.requests.length + 1) && r.grants (r.requests.length + 2)) ∧
      ((syncFile file path r).1 = true → (syncFile file path r).2 =
        uploaded file (ensureXFATStylePath path) (r.log (.getFileAttributes path))) := by
  have hcount : (r.log (.getFileAttributes path)).requests.length = r.requests.length + 1 :=
    List.length_append
  obtain ⟨r', hupload, -, hdone⟩ := upload_run file path (r.log (.getFileAttributes path))
  rw [hcount] at hupload hdone
  rcases syncFile_cases file h with ⟨hcurrent, -⟩ | ⟨-, hrun⟩
  · exact absurd hcurrent hstale
  · rw [hrun, hupload]
    exact ⟨rfl, hdone⟩

theorem settles_stale_iff (h : NoDirectory path r)
    (hstale : ¬Current file (r.files (r.key path))) (hdone : (syncFile file path r).1 = true) :
    Settles file path r ↔
      r.key (ensureXFATStylePath path) = r.key path ∧ file.data.length < 2 ^ 32 := by
  have hleft := (syncFile_stale h hstale).2 hdone
  have hdirectory : NoDirectory path (syncFile file path r).2 := by
    rw [hleft]
    exact @noDirectory_uploaded path (r.log _) file h _
  rw [settles_iff_current hdirectory, imp_iff_right hdone, hleft]
  exact current_uploaded_iff (r := r.log (.getFileAttributes path)) hstale

/-- For a path that is no directory: after a synchronisation that worked there is nothing to send and
every change is sent, exactly if the remote file was as the local one already, or the path with its
slashes turned is a path to the same file and the length fits 32 bits, or the upload is refused. -/
theorem syncFile_settles_iff (file : LocalFile) (path : Bytes) (r : Remote)
    (h : NoDirectory path r) :
    Settles file path r ↔
      Current file (r.files (r.key path)) ∨
      (r.key (ensureXFATStylePath path) = r.key path ∧ file.data.length < 2 ^ 32) ∨
      ¬(r.grants (r.requests.length + 1) ∧ r.grants (r.requests.length + 2)) := by
  by_cases hcurrent : Current file (r.files (r.key path))
  · refine iff_of_true ?_ (.inl hcurrent)
    rcases syncFile_cases file h with ⟨-, hrun⟩ | ⟨hstale, -⟩
    · rw [settles_iff_current (by rw [hrun]; exact h), hrun]
      exact fun _ => hcurrent
    · exact absurd hcurrent hstale
  · have hfirst := (syncFile_stale h hcurrent).1
    rw [or_iff_right hcurrent, ← Bool.and_eq_true_iff, ← hfirst]
    by_cases hdone : (syncFile file path r).1 = true
    · rw [settles_stale_iff h hcurrent hdone, or_iff_left (not_not.mpr hdone)]
    · exact iff_of_true (fun hdone' => absurd hdone' hdone) (.inr hdone)

/-- A remote that grants everything and does not know the slash. -/
def emptyRemote : Remote where
  key := id
  files _ := none
  grants _ := true
  drift _ := 0

def note : LocalFile where
  name := ascii "note"
  data := [1, 2, 3]
  seconds := 5
  size_lt := by decide

theorem settles_backslash : Settles note (ascii "E:\\note") emptyRemote :=
  (syncFile_settles_iff note (ascii "E:\\note") emptyRemote nofun).mpr
    (.inr (.inl ⟨by decide, by decide⟩))

/-- The question is asked about the path as it is, the file is sent to the one with backslashes: it
is sent every time. -/
theorem not_settles_slash : ¬Settles note (ascii "E:/note") emptyRemote := by
  have hempty : NoDirectory (ascii "E:/note") emptyRemote := nofun
  have hstale : ¬Current note (emptyRemote.files (emptyRemote.key (ascii "E:/note"))) := nofun
  have hdone := (syncFile_stale hempty hstale).1
  rw [settles_stale_iff hempty hstale hdone]
  rintro ⟨hkey, -⟩
  exact absurd hkey (by decide)

end Settling

end XbdmGdbBridge.Proofs.FileSync
