import XbdmGdbBridge.Shell.SaveDirectory

/-!
# Where a fetched directory goes

The names of a listing are used as they come. So where `SaveDirectory` makes directories and writes
files is told by the names on the way to an entry, read as one walk.
-/

namespace XbdmGdbBridge.Proofs.Containment

open Lib Program CText FileUtil Saving

section Paths

theorem moves_slash (path name : Bytes) :
    moves (path ++ byte '/' :: name) = moves path ++ moves name := by
  rw [moves, split_append, List.filterMap_append]
  rfl

theorem origin_append {path : Bytes} (h : path ≠ []) (cwd : Place) (name : Bytes) :
    origin cwd (path ++ name) = origin cwd path := by
  obtain ⟨c, rest, rfl⟩ := List.exists_cons_of_ne_nil h
  rfl

theorem follow_of_moves {cwd : Place} {whole path name : Bytes} (hname : isAbsolute name = false)
    (horigin : origin cwd whole = origin cwd path) (hmoves : moves whole = moves path ++ moves name) :
    follow cwd whole = follow (follow cwd path) name := by
  have hrelative : origin (follow cwd path) name = follow cwd path := by
    rw [origin, hname]
    rfl
  rw [follow, horigin, hmoves, walk_append, follow, hrelative]
  rfl

theorem follow_append (cwd : Place) (path name : Bytes) :
    follow cwd (append path name) = follow (follow cwd path) name := by
  unfold append
  split
  next habsolute => rw [follow, origin, if_pos habsolute, follow, origin, if_pos habsolute]
  next hrelative =>
    have hname : isAbsolute name = false := Bool.eq_false_iff.mpr hrelative
    split
    next hfilename =>
      have hne : path ≠ [] := (of_decide_eq_true hfilename).1
      exact follow_of_moves hname (origin_append hne cwd _) (moves_slash path name)
    next hfilename =>
      rcases eq_or_ne path [] with rfl | hne
      · rfl
      · -- the separator is there already
        obtain ⟨front, last, rfl⟩ := (List.eq_nil_or_concat' path).resolve_left hne
        obtain rfl : last = byte '/' := by
          by_contra hlast
          exact hfilename (decide_eq_true ⟨hne, by simpa using hlast⟩)
        refine follow_of_moves hname (origin_append hne cwd name) ?_
        have hfront : moves (front ++ [byte '/']) = moves front := by
          rw [moves_slash front []]
          exact List.append_nil _
        rw [List.append_assoc, hfront]
        exact moves_slash front name

end Paths

section Visits

/-- What was done for an entry, with the names that lead to it. -/
inductive Visit where
  | made (names : List Bytes) (name : Bytes) (missing : Place → Bool)
  | written (names : List Bytes) (name data : Bytes)

/-- An entry of a directory is reached by the name of the directory first. -/
def Visit.below (directory : Bytes) : Visit → Visit
  | .made names name missing => .made (directory :: names) name missing
  | .written names name data => .written (directory :: names) name data

/-- The entries that are come to, and whether nothing fails. -/
structure Visits where
  complete : Bool
  all : List Visit

namespace Visits

/-- One part and then the next, unless the first fails. -/
def andThen (v w : Visits) : Visits :=
  if v.complete then ⟨w.complete, v.all ++ w.all⟩ else v

def below (directory : Bytes) (v : Visits) : Visits :=
  ⟨v.complete, v.all.map (Visit.below directory)⟩

def ofFile (name : Bytes) : FileAnswer → Visits
  | .refused => ⟨false, []⟩
  | .unopened _ => ⟨false, []⟩
  | .written data good => ⟨good, [.written [] name data]⟩

def ofFiles : FileUtil.Entries → Visits
  | .nil => ⟨true, []⟩
  | .directory _ _ _ rest => ofFiles rest
  | .file name answer rest => (ofFile name answer).andThen (ofFiles rest)

mutual

def ofListing : Listing → Visits
  | .refused => ⟨false, []⟩
  | .listed entries => (ofDirectories entries).andThen (ofFiles entries)

def ofDirectories : FileUtil.Entries → Visits
  | .nil => ⟨true, []⟩
  | .file _ _ rest => ofDirectories rest
  | .directory name missing contents rest =>
    andThen ⟨true, [.made [] name missing]⟩
      (((ofListing contents).below name).andThen (ofDirectories rest))

end

end Visits

/-- Where names lead one after the other. -/
def reach (place : Place) (names : List Bytes) : Place :=
  names.foldl follow place

/-- The places of the directories that were made. -/
def Visit.madeAt (place : Place) : Visit → List Place
  | .made names name missing =>
    (steps (origin (reach place names) name) (moves name)).filter missing
  | .written _ _ _ => []

/-- The places of the files that were written. -/
def Visit.writtenAt (place : Place) : Visit → List (Place × Bytes)
  | .made _ _ _ => []
  | .written names name data => [(follow (reach place names) name, data)]

/-- The operation does what these visits say, from a place on. -/
structure Does (place : Place) (x : Op Bool) (v : Visits) : Prop where
  result : ∀ s, (x s).1 = v.complete
  made : ∀ s, (x s).2.made = s.made ++ v.all.flatMap (Visit.madeAt place)
  written : ∀ s, (x s).2.written = s.written ++ v.all.flatMap (Visit.writtenAt place)

section Rules

variable {place : Place} {x y : Op Bool} {v w : Visits}

theorem does_pure (b : Bool) : Does place (pure b) ⟨b, []⟩ :=
  ⟨fun _ => rfl, fun _ => (List.append_nil _).symm, fun _ => (List.append_nil _).symm⟩

theorem Does.request (r : FileRequest) (h : Does place x v) :
    Does place (do sendCommandSync r; x) v :=
  ⟨fun _ => h.result _, fun _ => h.made _, fun _ => h.written _⟩

theorem Does.andThen (h : Does place x v) (h' : Does place y w) :
    Does place (do if ← x then y else return false) (v.andThen w) := by
  obtain ⟨b, all⟩ := v
  have hstep (s : Saving) : (do if ← x then y else return false : Op Bool) s =
      (if b then y else pure false : Op Bool) (x s).2 := by
    rw [run_bind, h.result]
  cases b with
  | true =>
    refine ⟨fun s => ?_, fun s => ?_, fun s => ?_⟩ <;> rw [hstep]
    · exact h'.result _
    · exact (h'.made _).trans (by rw [h.made]; simp [Visits.andThen])
    · exact (h'.written _).trans (by rw [h.written]; simp [Visits.andThen])
  | false =>
    refine ⟨fun s => ?_, fun s => ?_, fun s => ?_⟩ <;> rw [hstep]
    · rfl
    · exact h.made _
    · exact h.written _

theorem Does.create (name : Bytes) (missing : Place → Bool) (h : Does place x v) :
    Does place (do createDirectories place name missing; x)
      (Visits.andThen ⟨true, [.made [] name missing]⟩ v) := by
  refine ⟨fun s => h.result _, fun s => ?_, fun s => h.written _⟩
  refine (h.made _).trans ?_
  change _ = s.made ++ (Visit.made [] name missing :: v.all).flatMap (Visit.madeAt place)
  rw [List.flatMap_cons, ← List.append_assoc]
  rfl

theorem Does.below {name : Bytes} (h : Does (follow place name) x v) :
    Does place x (v.below name) := by
  have hmade : Visit.madeAt (follow place name) = fun u => (u.below name).madeAt place := by
    funext u
    cases u <;> rfl
  have hwritten : Visit.writtenAt (follow place name) = fun u => (u.below name).writtenAt place := by
    funext u
    cases u <;> rfl
  refine ⟨h.result, fun s => ?_, fun s => ?_⟩
  · rw [h.made, Visits.below, List.flatMap_map, hmade]
  · rw [h.written, Visits.below, List.flatMap_map, hwritten]

end Rules

variable (cwd : Place)

theorem does_saveFile (remote localPath name : Bytes) (answer : FileAnswer) :
    Does (follow cwd localPath) (saveFile cwd remote (append localPath name) answer)
      (.ofFile name answer) := by
  cases answer with
  | refused => exact (does_pure false).request _
  | unopened data => exact (does_pure false).request _
  | written data good =>
    refine ⟨fun _ => rfl, fun _ => (List.append_nil _).symm, fun s => ?_⟩
    change s.written ++ [(follow cwd (append localPath name), data)] = _
    rw [follow_append]
    rfl

theorem does_saveFiles (remoteDir localPath : Bytes) : (entries : FileUtil.Entries) →
    Does (follow cwd localPath) (saveFiles cwd remoteDir localPath entries) (.ofFiles entries)
  | .nil => does_pure true
  | .directory _ _ _ rest => does_saveFiles remoteDir localPath rest
  | .file name answer rest =>
    (does_saveFile cwd (remoteDir ++ name) localPath name answer).andThen
      (does_saveFiles remoteDir localPath rest)

mutual

/-- Every local path that comes up leads where the names on the way lead. -/
theorem does_saveDirectory (remote localPath : Bytes) : (listing : Listing) →
    Does (follow cwd localPath) (saveDirectory cwd remote localPath listing) (.ofListing listing)
  | .refused => by
    rw [saveDirectory, Visits.ofListing]
    exact (does_pure false).request _
  | .listed entries => by
    rw [saveDirectory, Visits.ofListing]
    exact ((does_saveDirectories _ localPath entries).andThen
      (does_saveFiles cwd _ localPath entries)).request _

theorem does_saveDirectories (remoteDir localPath : Bytes) : (entries : FileUtil.Entries) →
    Does (follow cwd localPath) (saveDirectories cwd remoteDir localPath entries)
      (.ofDirectories entries)
  | .nil => by
    rw [saveDirectories, Visits.ofDirectories]
    exact does_pure true
  | .file _ _ rest => by
    rw [saveDirectories, Visits.ofDirectories]
    exact does_saveDirectories remoteDir localPath rest
  | .directory name missing contents rest => by
    have hcontents := does_saveDirectory (remoteDir ++ name) (append localPath name) contents
    rw [follow_append] at hcontents
    rw [saveDirectories, Visits.ofDirectories]
    exact (hcontents.below.andThen (does_saveDirectories remoteDir localPath rest)).create name missing

end

end Visits

section Ways

/-- Names read as one walk; a name with a slash in front begins it anew at the root. -/
structure Way where
  absolute : Bool := false
  moves : List (Move Bytes) := []

namespace Way

def place (start : Place) (w : Way) : Place :=
  walk (if w.absolute then [] else start) w.moves

/-- Some of the elements of a name are added. -/
def part (w : Way) (name : Bytes) (ms : List (Move Bytes)) : Way :=
  if isAbsolute name then ⟨true, ms⟩ else ⟨w.absolute, w.moves ++ ms⟩

def add (w : Way) (name : Bytes) : Way :=
  w.part name (FileUtil.moves name)

/-- No `..` is left over, or what follows takes up the names again that were climbed over. -/
def Stays (start : Place) (w : Way) : Prop :=
  if w.absolute then start <+: (net w.moves).names
  else start.drop (start.length - (net w.moves).climbed) <+: (net w.moves).names

variable {start : Place} {w : Way}

end Way

def way (names : List Bytes) : Way :=
  names.foldl Way.add {}

end Ways

section Results

/-- What was done for the entry was done at or below the place. -/
def Visit.Harmless (start : Place) : Visit → Prop
  | .made names name missing => ∀ taken, taken <+: moves name → taken ≠ [] →
      missing (((way names).part name taken).place start) = true →
      ((way names).part name taken).Stays start
  | .written names name _ => ((way names).add name).Stays start

end Results

end XbdmGdbBridge.Proofs.Containment
