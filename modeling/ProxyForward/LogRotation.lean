import ProxyForward.Files
import ProxyForward.Runs

namespace ProxyForward.Logging
set_option autoImplicit true
open Files Runs

/-- An open file; once closed it takes no more writes, whatever closing returned. -/
structure Handle where
  file : Nat
  closed : Bool
  deriving DecidableEq, Repr

/-- A log file with the files it is kept in. -/
structure RotatingWriter where
  path : String
  maxBytes : Int
  keep : Nat
  f : Option Handle
  size : Int
  fs : FS

/-- Which of the file operations of one `Write` succeed; `wrote` is `none` for a write of
everything, else how much of it is written before it fails. -/
structure Outcomes where
  close : Bool
  remove : Bool
  shift : Nat → Bool
  rename : Bool
  openFile : Bool
  stat : Bool
  wrote : Option Nat

def Outcomes.ok : Outcomes := ⟨true, true, fun _ => true, true, true, true, none⟩

inductive WriteError where
  | closed
  | invalid
  | failed
  deriving DecidableEq, Repr

namespace RotatingWriter

def numbered (path : String) (i : Nat) : String := path ++ "." ++ toString i

/-- `open`; the flag says that it returned no error. -/
def reopen (w : RotatingWriter) (o : Outcomes) : RotatingWriter × Bool :=
  if ¬o.openFile then (w, false)
  else
    let (i, fs) := w.fs.openAppend w.path
    if ¬o.stat then ({ w with fs }, false)
    else ({ w with fs, f := some ⟨i, false⟩, size := (fs.content i).length }, true)

def newRotatingWriter (fs : FS) (path : String) (maxBytes : Int) (keep : Nat) (o : Outcomes) :
    Option RotatingWriter :=
  let (w, ok) := (RotatingWriter.mk path maxBytes keep none 0 fs).reopen o
  if ok then some w else none

/-- The renames of the kept files, from `i` down to 1; a failed one changes nothing. -/
def shiftKept (path : String) (shift : Nat → Bool) (fs : FS) : Nat → FS
  | 0 => fs
  | i + 1 =>
    let fs :=
      if shift (i + 1) then fs.rename (numbered path (i + 1)) (numbered path (i + 2)) else fs
    shiftKept path shift fs i

def rotate (w : RotatingWriter) (o : Outcomes) : RotatingWriter × Bool :=
  match w.f with
  | none => (w, false)
  | some h =>
    if h.closed ∨ ¬o.close then ({ w with f := some { h with closed := true } }, false)
    else
      let fs := if o.remove then w.fs.remove (numbered w.path w.keep) else w.fs
      let fs := shiftKept w.path o.shift fs (w.keep - 1)
      let fs := if o.rename then fs.rename w.path (numbered w.path 1) else fs
      reopen { w with f := none, fs } o

/-- The rotation that a `Write` of `p` makes first, if the file would exceed its bound. -/
def rotated (w : RotatingWriter) (o : Outcomes) (p : List UInt8) : RotatingWriter :=
  if w.maxBytes < w.size + p.length then (w.rotate o).1 else w

/-- `w.f.Write`, on a handle that a failed rotation may have closed or taken away. -/
def writeFile (w : RotatingWriter) (o : Outcomes) (p : List UInt8) :
    RotatingWriter × Nat × Option WriteError :=
  match w.f with
  | none => (w, 0, some .invalid)
  | some h =>
    if h.closed then (w, 0, some .closed)
    else
      let put := match o.wrote with
        | none => p
        | some n => p.take n
      ({ w with fs := w.fs.append h.file put, size := w.size + put.length }, put.length,
        o.wrote.map fun _ => .failed)

def write (w : RotatingWriter) (o : Outcomes) (p : List UInt8) :
    RotatingWriter × Nat × Option WriteError :=
  match w.f with
  | none => (w, 0, some .closed)
  | some _ => (w.rotated o p).writeFile o p

end RotatingWriter

/-- One `Write` and how its file operations come out. -/
structure Call where
  p : List UInt8
  o : Outcomes

def step (w : RotatingWriter) (c : Call) : Option RotatingWriter := some (w.write c.o c.p).1

/-- A `Write` that returns no error has added its bytes to the file at the writer's path, and to no
other. -/
def AppendsExactly (w : RotatingWriter) (c : Call) : Prop :=
  (w.write c.o c.p).2.2 = none → ∃ i,
    (w.write c.o c.p).1.fs.names w.path = some i ∧
      (w.write c.o c.p).1.fs.content = Function.update w.fs.content i (w.fs.content i ++ c.p)

/-- Every `Write` whose file operations succeed returns no error. -/
def Recovers (w : RotatingWriter) : Prop := ∀ p, (w.write .ok p).2.2 = none

/-- If this `Write` rotates, the file is closed without an error and one is opened again. -/
def Reopens (w : RotatingWriter) (c : Call) : Prop :=
  w.maxBytes < w.size + c.p.length → c.o.close ∧ c.o.openFile ∧ c.o.stat

instance (w : RotatingWriter) (c : Call) : Decidable (Reopens w c) :=
  inferInstanceAs (Decidable (_ → _))

namespace RotatingWriter

/-- A handle that is open is of the file at the path. -/
def Current (w : RotatingWriter) : Prop :=
  ∀ h, w.f = some h → h.closed = false → w.fs.names w.path = some h.file

/-- The writer has a file to write to. -/
def IsOpen (w : RotatingWriter) : Prop := ∃ h, w.f = some h ∧ h.closed = false

theorem content_shiftKept (path : String) (shift : Nat → Bool) (fs : FS) (n : Nat) :
    (shiftKept path shift fs n).content = fs.content := by
  induction n generalizing fs with
  | zero => rfl
  | succ n ih =>
    unfold shiftKept
    rw [ih]
    split
    · exact FS.content_rename fs _ _
    · rfl

theorem current_of_none {w : RotatingWriter} (hf : w.f = none) : w.Current := by
  intro h hh
  cases hf.symm.trans hh

theorem not_isOpen_of_none {w : RotatingWriter} (hf : w.f = none) : ¬w.IsOpen := by
  rintro ⟨h, hh, -⟩
  cases hf.symm.trans hh

theorem isOpen_iff {w : RotatingWriter} (hf : w.f = some h) : w.IsOpen ↔ h.closed = false := by
  constructor
  · rintro ⟨h', hh, hc⟩
    cases hf.symm.trans hh
    exact hc
  · exact fun hc => ⟨h, hf, hc⟩

theorem reopen_ok (w : RotatingWriter) (o : Outcomes) :
    (w.reopen o).2 = true ↔ o.openFile = true ∧ o.stat = true := by
  unfold reopen
  cases o.openFile <;> cases o.stat <;> simp

theorem reopen_spec (w : RotatingWriter) (hf : w.f = none) (o : Outcomes) :
    (w.reopen o).1.path = w.path ∧ (w.reopen o).1.fs.content = w.fs.content ∧
      (w.reopen o).1.Current ∧
      ((w.reopen o).1.IsOpen ↔ o.openFile = true ∧ o.stat = true) := by
  unfold reopen
  by_cases ho : o.openFile = true
  · by_cases hs : o.stat = true
    · simp only [ho, hs, not_true_eq_false, if_false]
      refine ⟨trivial, FS.content_openAppend _ _, ?_, ?_⟩
      · intro h hh _
        cases hh
        exact FS.names_openAppend _ _
      · exact ⟨fun _ => ⟨trivial, trivial⟩, fun _ => ⟨_, rfl, rfl⟩⟩
    · simp only [ho, hs, not_true_eq_false, if_false, if_true, Bool.false_eq_true,
        not_false_eq_true]
      exact ⟨trivial, FS.content_openAppend _ _, current_of_none hf,
        fun hopen => absurd hopen (not_isOpen_of_none hf), fun h => h.2.elim⟩
  · simp only [ho, if_true, Bool.false_eq_true, not_false_eq_true]
    exact ⟨trivial, trivial, current_of_none hf,
      fun hopen => absurd hopen (not_isOpen_of_none hf), fun h => h.1.elim⟩

theorem content_rotating (w : RotatingWriter) (o : Outcomes) :
    (if o.rename then
        (shiftKept w.path o.shift
          (if o.remove then w.fs.remove (numbered w.path w.keep) else w.fs)
          (w.keep - 1)).rename w.path (numbered w.path 1)
      else shiftKept w.path o.shift
        (if o.remove then w.fs.remove (numbered w.path w.keep) else w.fs)
        (w.keep - 1)).content = w.fs.content := by
  have hremove : (if o.remove then w.fs.remove (numbered w.path w.keep) else w.fs).content =
      w.fs.content := by
    split <;> rfl
  split
  · rw [FS.content_rename, content_shiftKept, hremove]
  · rw [content_shiftKept, hremove]

/-- A rotation moves files, but changes none, and ends with a handle exactly when the file is closed
and opened again. -/
theorem rotate_spec (w : RotatingWriter) (o : Outcomes) :
    (w.rotate o).1.path = w.path ∧ (w.rotate o).1.fs.content = w.fs.content ∧
      (w.rotate o).1.Current ∧
      ((w.rotate o).1.IsOpen ↔
        w.IsOpen ∧ o.close = true ∧ o.openFile = true ∧ o.stat = true) := by
  unfold rotate
  cases hf : w.f with
  | none =>
    have hno := not_isOpen_of_none hf
    exact ⟨rfl, rfl, current_of_none hf, fun h => absurd h hno, fun h => absurd h.1 hno⟩
  | some h =>
    rw [isOpen_iff hf]
    by_cases hc : h.closed = true ∨ ¬o.close = true
    · simp only [if_pos hc]
      refine ⟨trivial, trivial, ?_, ?_⟩
      · intro h' hh hno
        cases hh
        cases hno
      · rw [isOpen_iff rfl]
        refine ⟨nofun, ?_⟩
        rintro ⟨hclosed, hclose, -⟩
        rw [hclosed, hclose] at hc
        obtain hc | hc := hc
        · cases hc
        · exact absurd rfl hc
    · simp only [if_neg hc]
      rw [not_or, not_not, Bool.not_eq_true] at hc
      obtain ⟨hpath, hcontent, hcur, hopen⟩ := reopen_spec
        { w with
          f := none
          fs := if o.rename then
              (shiftKept w.path o.shift
                (if o.remove then w.fs.remove (numbered w.path w.keep) else w.fs)
                (w.keep - 1)).rename w.path (numbered w.path 1)
            else shiftKept w.path o.shift
              (if o.remove then w.fs.remove (numbered w.path w.keep) else w.fs) (w.keep - 1) }
        rfl o
      exact ⟨hpath, hcontent.trans (w.content_rotating o), hcur,
        hopen.trans ⟨fun h => ⟨hc.1, hc.2, h⟩, fun h => h.2.2⟩⟩

theorem rotated_spec (w : RotatingWriter) (hw : w.Current) (o : Outcomes) (p : List UInt8) :
    (w.rotated o p).path = w.path ∧ (w.rotated o p).fs.content = w.fs.content ∧
      (w.rotated o p).Current ∧
      ((w.rotated o p).IsOpen ↔ w.IsOpen ∧ Reopens w ⟨p, o⟩) := by
  unfold rotated Reopens
  by_cases hr : w.maxBytes < w.size + p.length
  · rw [if_pos hr]
    simp only [hr, true_implies]
    exact w.rotate_spec o
  · rw [if_neg hr]
    exact ⟨rfl, rfl, hw, fun h => ⟨h, fun hlt => absurd hlt hr⟩, fun h => h.1⟩

theorem writeFile_spec (w : RotatingWriter) (o : Outcomes) (p : List UInt8) :
    (w.writeFile o p).1.path = w.path ∧ (w.writeFile o p).1.f = w.f ∧
      (w.writeFile o p).1.fs.names = w.fs.names ∧
      ((w.writeFile o p).2.2 = none ↔ w.IsOpen ∧ o.wrote = none) ∧
      ((w.writeFile o p).2.2 = none → ∀ h, w.f = some h → (w.writeFile o p).1.fs.content =
        Function.update w.fs.content h.file (w.fs.content h.file ++ p)) := by
  unfold writeFile
  cases hf : w.f with
  | none =>
    exact ⟨rfl, hf, rfl, ⟨nofun, fun h => absurd h.1 (not_isOpen_of_none hf)⟩, nofun⟩
  | some h =>
    rw [isOpen_iff hf]
    by_cases hc : h.closed = true
    · simp only [if_pos hc]
      exact ⟨trivial, hf, trivial, ⟨nofun, fun h => absurd hc (Bool.eq_false_iff.1 h.1)⟩, nofun⟩
    · simp only [if_neg hc]
      refine ⟨trivial, trivial, rfl, ⟨?_, ?_⟩, ?_⟩
      · intro hn
        exact ⟨Bool.eq_false_iff.2 hc, Option.map_eq_none_iff.1 hn⟩
      · intro hn
        rw [hn.2]
        rfl
      · intro hn h' hh
        cases hh
        rw [Option.map_eq_none_iff.1 hn]
        rfl

theorem Current.of_writeFile {w : RotatingWriter} (hw : w.Current) (o : Outcomes)
    (p : List UInt8) : (w.writeFile o p).1.Current := by
  obtain ⟨hpath, hf, hnames, -, -⟩ := w.writeFile_spec o p
  intro h hh hno
  rw [hpath, hnames]
  rw [hf] at hh
  exact hw h hh hno

theorem write_spec (w : RotatingWriter) (hw : w.Current) (o : Outcomes) (p : List UInt8) :
    (w.write o p).1.Current ∧ ((w.write o p).1.IsOpen ↔ w.IsOpen ∧ Reopens w ⟨p, o⟩) ∧
      ((w.write o p).2.2 = none ↔ w.IsOpen ∧ Reopens w ⟨p, o⟩ ∧ o.wrote = none) := by
  unfold write
  cases hf : w.f with
  | none =>
    have hno := not_isOpen_of_none hf
    exact ⟨hw, ⟨fun h => absurd h hno, fun h => absurd h.1 hno⟩, ⟨nofun, fun h => absurd h.1 hno⟩⟩
  | some h =>
    obtain ⟨-, -, hcur, hopen⟩ := w.rotated_spec hw o p
    obtain ⟨-, hsame, -, herr, -⟩ := (w.rotated o p).writeFile_spec o p
    refine ⟨hcur.of_writeFile o p, ?_, ?_⟩
    · rw [← hopen]
      unfold IsOpen
      simp only [hsame]
    · rw [herr, hopen, and_assoc]

theorem write_appendsExactly (w : RotatingWriter) (hw : w.Current) (c : Call) :
    AppendsExactly w c := by
  intro hn
  unfold write at hn ⊢
  cases hf : w.f with
  | none =>
    simp only [hf] at hn
    cases hn
  | some h =>
    simp only [hf] at hn
    obtain ⟨hpath, hcontent, hcur, -⟩ := w.rotated_spec hw c.o c.p
    obtain ⟨-, -, hnames, herr, hput⟩ := (w.rotated c.o c.p).writeFile_spec c.o c.p
    obtain ⟨⟨h', hh, hno⟩, -⟩ := herr.1 hn
    refine ⟨h'.file, ?_, ?_⟩
    · rw [hnames, ← hpath]
      exact hcur h' hh hno
    · rw [hput hn h' hh, hcontent]

theorem recovers_iff (w : RotatingWriter) (hw : w.Current) : Recovers w ↔ w.IsOpen := by
  constructor
  · intro h
    exact ((w.write_spec hw .ok []).2.2.1 (h [])).1
  · intro h p
    exact (w.write_spec hw .ok p).2.2.2 ⟨h, fun _ => ⟨rfl, rfl, rfl⟩, rfl⟩

theorem newRotatingWriter_spec {fs : FS} {path : String} {maxBytes : Int} {keep : Nat}
    (h : newRotatingWriter fs path maxBytes keep o = some w) :
    w.Current ∧ w.IsOpen := by
  obtain ⟨-, -, hcur, hopen⟩ := reopen_spec ⟨path, maxBytes, keep, none, 0, fs⟩ rfl o
  simp only [newRotatingWriter] at h
  split at h <;> cases h
  next hok => exact ⟨hcur, hopen.2 ((reopen_ok _ o).1 hok)⟩

end RotatingWriter

/-- Every `Write` of a run appends what it says and none leaves a writer that fails although its
file operations succeed, exactly when every rotation closes the file and opens one again. -/
theorem rotation_never_stops_iff
    (hw : RotatingWriter.newRotatingWriter fs path maxBytes keep o = some w) (cs : List Call) :
    (Along step AppendsExactly w cs ∧ Always step Recovers w cs) ↔ Along step Reopens w cs := by
  obtain ⟨hcur, hopen⟩ := RotatingWriter.newRotatingWriter_spec hw
  have happ : Along step AppendsExactly w cs := by
    apply along_of_invariant (I := RotatingWriter.Current) (C := fun _ _ => True) _ hcur
      (along_of_forall (fun _ _ => trivial) w)
    intro w c w' hc _ hs
    cases hs
    exact ⟨(w.write_spec hc c.o c.p).1, w.write_appendsExactly hc c⟩
  have hrec : Always step Recovers w cs ↔ Along step Reopens w cs := by
    apply always_iff_along (I := fun w => w.Current ∧ w.IsOpen) _ _ ⟨hcur, hopen⟩
    · intro w hi
      exact (w.recovers_iff hi.1).2 hi.2
    · intro w c w' hi hs
      cases hs
      obtain ⟨hc, ho, -⟩ := w.write_spec hi.1 c.o c.p
      constructor
      · intro hr
        exact ⟨hc, ho.2 ⟨hi.2, hr⟩⟩
      · intro hr
        exact (ho.1 ((RotatingWriter.recovers_iff _ hc).1 hr)).2
  rw [hrec]
  exact and_iff_right happ

/-- A new log of two bytes a file. -/
def smallLog : RotatingWriter := ⟨"log", 2, 3, some ⟨0, false⟩, 0, (FS.empty.openAppend "log").2⟩

theorem smallLog_new : RotatingWriter.newRotatingWriter .empty "log" 2 3 .ok = some smallLog :=
  rfl

/-- Two lines that each fill a file, and a third whose rotation cannot rename. -/
theorem smallLog_goes_on :
    Along step AppendsExactly smallLog
        [⟨[1, 2], .ok⟩, ⟨[3, 4], .ok⟩, ⟨[5], { Outcomes.ok with rename := false }⟩] ∧
      Always step Recovers smallLog
        [⟨[1, 2], .ok⟩, ⟨[3, 4], .ok⟩, ⟨[5], { Outcomes.ok with rename := false }⟩] :=
  (rotation_never_stops_iff smallLog_new _).2 (by decide)

/-- The file cannot be opened again once, and the log is closed for good. -/
theorem failed_reopen_stops_log :
    ¬∀ (fs : FS) (path : String) (maxBytes : Int) (keep : Nat) (o : Outcomes)
      (w : RotatingWriter) (cs : List Call),
      RotatingWriter.newRotatingWriter fs path maxBytes keep o = some w →
        Along step AppendsExactly w cs ∧ Always step Recovers w cs := by
  intro h
  have hrun := (h .empty "log" 2 3 .ok smallLog
    [⟨[1, 2], .ok⟩, ⟨[3], { Outcomes.ok with openFile := false }⟩, ⟨[4], .ok⟩] smallLog_new).2
  have hlast := hrun.final (reaches_of_final rfl) [5]
  exact absurd hlast (by decide)

end ProxyForward.Logging
