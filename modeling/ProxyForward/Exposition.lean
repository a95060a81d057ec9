import Mathlib.Data.List.Basic
import Mathlib.Data.List.TakeWhile

namespace Exposition
set_option autoImplicit true

structure Series where
  name : List Char
  labels : List (List Char × List Char)
  value : List Char
  timestamp : Option (List Char)
  deriving DecidableEq, Repr

/-- A line of the text exposition format. -/
inductive Entry where
  | blank
  | comment (text : List Char)
  | series (s : Series)
  deriving DecidableEq, Repr

def isLabelChar (c : Char) : Bool := c.isAlphanum || c = '_'

def isNameChar (c : Char) : Bool := isLabelChar c || c = ':'

/-- Where a reader is in the labels of a series. -/
inductive LabelState where
  | name (name : List Char)
  | opening (name : List Char)
  | value (name value : List Char)
  | escaped (name value : List Char)
  | closed

section

-- whether an escape that the format does not have is an error, or stands for itself
variable (strict : Bool)

def unescape (c : Char) : Option (List Char) :=
  if c = '\\' ∨ c = '"' then some [c]
  else if c = 'n' then some ['\n']
  else if strict then none
  else some ['\\', c]

/-- The labels up to the closing brace, and what follows it. -/
def readLabels : LabelState → List (List Char × List Char) → List Char →
    Option (List (List Char × List Char) × List Char)
  | _, _, [] => none
  | .name name, ls, c :: cs =>
    if c = '=' ∧ name ≠ [] then readLabels (.opening name) ls cs
    else if c = '\x7d' ∧ name = [] then some (ls, cs)
    else if isLabelChar c then readLabels (.name (name ++ [c])) ls cs
    else none
  | .opening name, ls, c :: cs => if c = '"' then readLabels (.value name []) ls cs else none
  | .value name value, ls, c :: cs =>
    if c = '"' then readLabels .closed (ls ++ [(name, value)]) cs
    else if c = '\\' then readLabels (.escaped name value) ls cs
    else readLabels (.value name (value ++ [c])) ls cs
  | .escaped name value, ls, c :: cs =>
    match unescape strict c with
    | some w => readLabels (.value name (value ++ w)) ls cs
    | none => none
  | .closed, ls, c :: cs =>
    if c = ',' then readLabels (.name []) ls cs
    else if c = '\x7d' then some (ls, cs)
    else none

def readValue (name : List Char) (labels : List (List Char × List Char)) :
    List Char → Option Entry
  | ' ' :: cs =>
    let value := cs.takeWhile (· ≠ ' ')
    if value = [] then none
    else some (.series ⟨name, labels, value, (cs.dropWhile (· ≠ ' ')).tail?⟩)
  | _ => none

/-- A name of a metric, which starts with no digit. -/
def isName (name : List Char) : Bool :=
  name.all isNameChar && name.head?.any fun c => !c.isDigit

/-- A series after its name. -/
def readSeries (name : List Char) : List Char → Option Entry
  | '\x7b' :: cs => (readLabels strict (.name []) [] cs).bind fun (ls, cs) => readValue name ls cs
  | cs => readValue name [] cs

def readLine : List Char → Option Entry
  | [] => some .blank
  | '#' :: cs => some (.comment cs)
  | cs =>
    let name := cs.takeWhile isNameChar
    if isName name then readSeries strict name (cs.dropWhile isNameChar) else none

/-- The lines of a text, each ended by a newline. -/
def linesFrom : List Char → List Char → Option (List (List Char))
  | acc, [] => if acc = [] then some [] else none
  | acc, c :: cs =>
    if c = '\n' then (linesFrom [] cs).map (acc :: ·) else linesFrom (acc ++ [c]) cs

def read (text : List Char) : Option (List Entry) := (linesFrom [] text).bind
    (·.mapM (readLine strict))

/-- In a label's value the text `raw` spells `out`, or is no text of a value. -/
def Spells (raw : List Char) (out : Option (List Char)) : Prop :=
  ∀ name value ls cs, readLabels strict (.value name value) ls (raw ++ cs) =
    out.bind fun w => readLabels strict (.value name (value ++ w)) ls cs

/-- What the text of each character spells, one after the other. -/
def spelling (out : Char → Option (List Char)) : List Char → Option (List Char)
  | [] => some []
  | c :: cs => (out c).bind fun w => (spelling out cs).map (w ++ ·)

/-- The text is read, whatever follows it, as many entries as it means, and they are the ones that
it means exactly when `ok`. -/
def Block (text : List Char) (meant : List Entry) (ok : Prop) : Prop :=
  ∃ out : Option (List Entry),
    (∀ rest, read strict (text ++ rest) = out.bind fun es => (read strict rest).map (es ++ ·)) ∧
      (∀ es ∈ out, es.length = meant.length) ∧ (out = some meant ↔ ok)

variable {strict}

theorem Spells.nil : Spells strict [] (some []) := by
  intro name value ls cs
  rw [List.nil_append, Option.bind_some, List.append_nil]

theorem Spells.append (h : Spells strict raw out) (h' : Spells strict raw' out') :
    Spells strict (raw ++ raw') (out.bind fun w => out'.map (w ++ ·)) := by
  intro name value ls cs
  rw [List.append_assoc, h]
  cases out with
  | none => rfl
  | some w =>
    rw [Option.bind_some, Option.bind_some, h']
    cases out' with
    | none => rfl
    | some w' => rw [Option.bind_some, Option.map_some, Option.bind_some, List.append_assoc]

/-- A character that needs no escape. -/
theorem spells_plain (hquote : c ≠ '"') (hslash : c ≠ '\\') : Spells strict [c] (some [c]) := by
  intro name value ls cs
  rw [List.singleton_append, readLabels, if_neg hquote, if_neg hslash]
  rfl

theorem spells_escape (strict : Bool) (c : Char) : Spells strict ['\\', c] (unescape strict c) := by
  intro name value ls cs
  have hslash : ¬('\\' : Char) = '"' := by decide
  rw [List.cons_append, readLabels, if_neg hslash, if_pos rfl, List.singleton_append, readLabels]
  cases unescape strict c <;> rfl

theorem spells_self {raw : List Char} (h : ∀ c ∈ raw, c ≠ '"' ∧ c ≠ '\\') :
    Spells strict raw (some raw) := by
  induction raw with
  | nil => exact .nil
  | cons c raw ih =>
    obtain ⟨hquote, hslash⟩ := h c List.mem_cons_self
    exact (spells_plain hquote hslash).append (ih fun c hc => h c (List.mem_cons_of_mem _ hc))

theorem spells_flatMap {raw : Char → List Char} {out : Char → Option (List Char)}
    {cs : List Char} (h : ∀ c ∈ cs, Spells strict (raw c) (out c)) :
    Spells strict (cs.flatMap raw) (spelling out cs) := by
  induction cs with
  | nil => exact .nil
  | cons c cs ih =>
    rw [List.flatMap_cons]
    exact (h c List.mem_cons_self).append (ih fun c hc => h c (List.mem_cons_of_mem _ hc))

/-- A spelling gives the text back exactly when every character does, if those that do not give more
than one. -/
theorem spelling_eq_self_iff {out : Char → Option (List Char)}
    (hout : ∀ c w, out c = some w → w = [c] ∨ 2 ≤ w.length) (cs : List Char) :
    spelling out cs = some cs ↔ ∀ c ∈ cs, out c = some [c] := by
  have hlen (ds ws : List Char) (h : spelling out ds = some ws) : ds.length ≤ ws.length := by
    induction ds generalizing ws with
    | nil => exact Nat.zero_le _
    | cons d ds ih =>
      obtain ⟨w, hw, hrest⟩ := Option.bind_eq_some_iff.1 h
      obtain ⟨ws', hws', rfl⟩ := Option.map_eq_some_iff.1 hrest
      have hle := ih ws' hws'
      rw [List.length_append, List.length_cons]
      obtain rfl | htwo := hout d w hw
      · rw [List.length_singleton]
        omega
      · omega
  induction cs with
  | nil => exact iff_of_true rfl nofun
  | cons c cs ih =>
    rw [List.forall_mem_cons]
    constructor
    · intro h
      obtain ⟨w, hw, hrest⟩ := Option.bind_eq_some_iff.1 h
      obtain ⟨ws, hws, heq⟩ := Option.map_eq_some_iff.1 hrest
      obtain rfl | htwo := hout c w hw
      · exact ⟨hw, ih.1 (hws.trans (congrArg some (List.cons.inj heq).2))⟩
      · have hle := hlen cs ws hws
        have hlength := congrArg List.length heq
        rw [List.length_append, List.length_cons] at hlength
        omega
    · rintro ⟨hc, hcs⟩
      rw [spelling, hc, ih.2 hcs]
      rfl

theorem readLabels_name {n : List Char} (hn : ∀ c ∈ n, isLabelChar c = true)
    (name : List Char) (hne : name ++ n ≠ []) (ls : List (List Char × List Char))
    (cs : List Char) : readLabels strict (.name name) ls (n ++ '=' :: cs) =
      readLabels strict (.opening (name ++ n)) ls cs := by
  induction n generalizing name with
  | nil =>
    rw [List.append_nil] at hne ⊢
    rw [List.nil_append, readLabels, if_pos ⟨rfl, hne⟩]
  | cons c n ih =>
    have hc : isLabelChar c = true := hn c List.mem_cons_self
    have heq : ¬(c = '=' ∧ name ≠ []) := by
      rintro ⟨rfl, -⟩
      exact absurd hc (by decide)
    have hclose : ¬(c = '\x7d' ∧ name = []) := by
      rintro ⟨rfl, -⟩
      exact absurd hc (by decide)
    rw [List.cons_append, readLabels, if_neg heq, if_neg hclose, if_pos hc,
      ih (fun c hc => hn c (List.mem_cons_of_mem _ hc)) _ (by simp)]
    simp only [List.append_assoc, List.singleton_append]

/-- The text of a label, with what its value's text spells. -/
structure LabelText (strict : Bool) where
  name : List Char
  raw : List Char
  out : Option (List Char)
  isLabel : name ≠ [] ∧ ∀ c ∈ name, isLabelChar c = true
  spells : Spells strict raw out

def LabelText.text (l : LabelText strict) : List Char := l.name ++ '=' :: '"' :: (l.raw ++ ['"'])

def LabelText.label (l : LabelText strict) : Option (List Char × List Char) :=
  l.out.map fun value => (l.name, value)

/-- Labels with commas between them, up to the closing brace. -/
def labelsText : List (LabelText strict) → List Char
  | [] => ['\x7d']
  | [l] => l.text ++ ['\x7d']
  | l :: l' :: rest => l.text ++ ',' :: labelsText (l' :: rest)

theorem readLabels_text (l : LabelText strict) (ls : List (List Char × List Char))
    (cs : List Char) : readLabels strict (.name []) ls (l.text ++ cs) =
      l.label.bind fun label => readLabels strict .closed (ls ++ [label]) cs := by
  have hopening (cs : List Char) : readLabels strict (.opening l.name) ls ('"' :: cs) =
      readLabels strict (.value l.name []) ls cs := if_pos rfl
  have hclosing (value cs : List Char) : readLabels strict (.value l.name value) ls ('"' :: cs) =
      readLabels strict .closed (ls ++ [(l.name, value)]) cs := if_pos rfl
  rw [LabelText.text, List.append_assoc, List.cons_append, List.cons_append, List.append_assoc,
    readLabels_name l.isLabel.2 [] l.isLabel.1, List.nil_append, hopening, l.spells,
      LabelText.label]
  cases l.out with
  | none => rfl
  | some value => exact hclosing value cs

theorem readLabels_labelsText (labels : List (LabelText strict))
    (ls : List (List Char × List Char)) (cs : List Char) :
    readLabels strict (.name []) ls (labelsText labels ++ cs) =
      (labels.mapM LabelText.label).map fun labels => (ls ++ labels, cs) := by
  induction labels generalizing ls with
  | nil =>
    have hbrace : ('\x7d' : Char) ≠ '=' := by decide
    rw [labelsText, List.singleton_append, readLabels, if_neg fun h => hbrace h.1,
      if_pos ⟨rfl, rfl⟩, List.mapM_nil]
    exact congrArg some (Prod.ext (List.append_nil ls).symm rfl)
  | cons l labels ih =>
    have hbrace (ls : List (List Char × List Char)) :
        readLabels strict .closed ls ('\x7d' :: cs) = some (ls, cs) := rfl
    have hcomma (ls : List (List Char × List Char)) (cs : List Char) :
        readLabels strict .closed ls (',' :: cs) = readLabels strict (.name []) ls cs := rfl
    cases labels with
    | nil =>
      rw [labelsText, List.append_assoc, readLabels_text, List.singleton_append, List.mapM_cons,
        List.mapM_nil]
      cases l.label with
      | none => rfl
      | some label => exact hbrace _
    | cons l' rest =>
      rw [labelsText, List.append_assoc, List.cons_append, readLabels_text, List.mapM_cons]
      cases l.label with
      | none => rfl
      | some label =>
        rw [Option.bind_some, hcomma, ih]
        cases (l' :: rest).mapM LabelText.label with
        | none => rfl
        | some labels =>
          rw [Option.map_some, List.append_assoc]
          rfl

theorem readValue_value (hne : value ≠ []) (hspace : ∀ c ∈ value, c ≠ ' ') (name : List Char)
    (ls : List (List Char × List Char)) :
    readValue name ls (' ' :: value) = some (.series ⟨name, ls, value, none⟩) := by
  have hall : ∀ c ∈ value, decide (c ≠ ' ') = true := fun c hc => decide_eq_true (hspace c hc)
  have htake : value.takeWhile (· ≠ ' ') = value := List.takeWhile_eq_self_iff.2 hall
  have hdrop : value.dropWhile (· ≠ ' ') = [] := List.dropWhile_eq_nil_iff.2 hall
  simp only [readValue, htake, hdrop, if_neg hne]
  rfl

theorem readLine_name (hname : isName name = true) {cs : List Char}
    (hend : ∀ c ∈ cs.head?, isNameChar c = false) :
    readLine strict (name ++ cs) = readSeries strict name cs := by
  obtain ⟨hall, hhead⟩ := Bool.and_eq_true_iff.1 hname
  rw [List.all_eq_true] at hall
  obtain ⟨c, hc, -⟩ := (Option.any_eq_true _ _).1 hhead
  have hdrop : cs.dropWhile isNameChar = cs := by
    cases cs with
    | nil => rfl
    | cons d cs => rw [List.dropWhile_cons_of_neg (by simp [hend d rfl])]
  have htake : cs.takeWhile isNameChar = [] := by
    cases cs with
    | nil => rfl
    | cons d cs => rw [List.takeWhile_cons_of_neg (by simp [hend d rfl])]
  have hfirst : (name ++ cs).takeWhile isNameChar = name := by
    rw [List.takeWhile_append_of_pos hall, htake, List.append_nil]
  have hrest : (name ++ cs).dropWhile isNameChar = cs := by
    rw [List.dropWhile_append_of_pos hall, hdrop]
  obtain ⟨ds, rfl⟩ : ∃ ds, name = c :: ds := by
    cases name with
    | nil => cases hc
    | cons d ds =>
      cases hc
      exact ⟨ds, rfl⟩
  unfold readLine
  split
  · rename_i h
    cases h
  · rename_i h
    cases (List.cons.inj h).1
    exact absurd (hall '#' List.mem_cons_self) (by decide)
  · simp only [hfirst, hrest, if_pos hname]

/-- The line of a series. -/
def seriesText (name : List Char) (labels : List (LabelText strict)) (value : List Char) :
    List Char :=
  name ++ if labels = [] then ' ' :: value else '\x7b' :: (labelsText labels ++ ' ' :: value)

/-- A series is read exactly with what its labels spell. -/
theorem readLine_seriesText (hname : isName name = true) (labels : List (LabelText strict))
    (hvalue : value ≠ []) (hspace : ∀ c ∈ value, c ≠ ' ') :
    readLine strict (seriesText name labels value) = (labels.mapM LabelText.label).map fun ls =>
      .series ⟨name, ls, value, none⟩ := by
  unfold seriesText
  by_cases hnone : labels = []
  · subst hnone
    rw [if_pos rfl, readLine_name hname (by
      intro c hc
      cases hc
      rfl)]
    exact readValue_value hvalue hspace name []
  · rw [if_neg hnone, readLine_name hname (by
      intro c hc
      cases hc
      rfl)]
    simp only [readSeries, readLabels_labelsText]
    cases labels.mapM LabelText.label with
    | none => rfl
    | some ls => exact readValue_value hvalue hspace name ls

theorem linesFrom_line {line : List Char} (hline : ∀ c ∈ line, c ≠ '\n') (acc cs : List Char) :
    linesFrom acc (line ++ '\n' :: cs) = (linesFrom [] cs).map ((acc ++ line) :: ·) := by
  induction line generalizing acc with
  | nil => rw [List.nil_append, linesFrom, if_pos rfl, List.append_nil]
  | cons c line ih =>
    rw [List.cons_append, linesFrom, if_neg (hline c List.mem_cons_self),
      ih fun c hc => hline c (List.mem_cons_of_mem _ hc)]
    simp only [List.append_assoc, List.singleton_append]

theorem read_line {line : List Char} (hline : ∀ c ∈ line, c ≠ '\n') (cs : List Char) :
    read strict (line ++ '\n' :: cs) =
      (readLine strict line).bind fun e => (read strict cs).map (e :: ·) := by
  rw [read, linesFrom_line hline, read]
  cases linesFrom [] cs with
  | none => cases readLine strict line <;> rfl
  | some lines =>
    simp only [Option.map_some, Option.bind_some, List.nil_append, List.mapM_cons]
    cases readLine strict line with
    | none => rfl
    | some e => cases lines.mapM (readLine strict) <;> rfl

theorem Block.nil : Block strict [] [] True := by
  refine ⟨some [], fun rest => ?_, ?_, iff_of_true rfl trivial⟩
  · rw [List.nil_append, Option.bind_some]
    exact Option.map_id'.symm
  · intro es hes
    cases hes
    rfl

theorem Block.append (h : Block strict text meant ok) (h' : Block strict text' meant' ok') :
    Block strict (text ++ text') (meant ++ meant') (ok ∧ ok') := by
  obtain ⟨out, hread, hlen, hok⟩ := h
  obtain ⟨out', hread', hlen', hok'⟩ := h'
  refine ⟨out.bind fun es => out'.map (es ++ ·), ?_, ?_, ?_⟩
  · intro rest
    rw [List.append_assoc, hread]
    cases out with
    | none => rfl
    | some es =>
      rw [Option.bind_some, Option.bind_some, hread']
      cases out' with
      | none => rfl
      | some es' =>
        rw [Option.bind_some, Option.map_some, Option.bind_some, Option.map_map]
        congr 1
        funext es''
        exact (List.append_assoc ..).symm
  · intro es hes
    obtain ⟨es₁, h₁, hrest⟩ := Option.bind_eq_some_iff.1 hes
    obtain ⟨es₂, h₂, rfl⟩ := Option.map_eq_some_iff.1 hrest
    rw [List.length_append, List.length_append, hlen es₁ h₁, hlen' es₂ h₂]
  · rw [← hok, ← hok']
    constructor
    · intro hes
      obtain ⟨es₁, h₁, hrest⟩ := Option.bind_eq_some_iff.1 hes
      obtain ⟨es₂, h₂, heq⟩ := Option.map_eq_some_iff.1 hrest
      obtain ⟨rfl, rfl⟩ := List.append_inj heq (hlen es₁ h₁)
      exact ⟨h₁, h₂⟩
    · rintro ⟨h₁, h₂⟩
      rw [h₁, h₂]
      rfl

theorem Block.congr (h : Block strict text meant ok) (hiff : ok ↔ ok') :
    Block strict text meant ok' := by
  rw [← propext hiff]
  exact h

/-- One line, and what it is to be read as. -/
theorem block_line {line : List Char} (hline : ∀ c ∈ line, c ≠ '\n') (e : Entry) :
    Block strict (line ++ ['\n']) [e] (readLine strict line = some e) := by
  refine ⟨(readLine strict line).map ([·]), fun rest => ?_, ?_, ?_⟩
  · rw [List.append_assoc, List.singleton_append, read_line hline]
    cases readLine strict line <;> rfl
  · intro es hes
    obtain ⟨e', -, rfl⟩ := Option.map_eq_some_iff.1 hes
    rfl
  · constructor
    · intro h
      obtain ⟨e', he, heq⟩ := Option.map_eq_some_iff.1 h
      rw [he, (List.cons.inj heq).1]
    · intro h
      rw [h]
      rfl

/-- The whole text means what it says exactly when its pieces do. -/
theorem Block.read_iff (h : Block strict text meant ok) :
    read strict text = some meant ↔ ok := by
  obtain ⟨out, hread, -, hok⟩ := h
  have hnil : read strict [] = some [] := rfl
  have htext := hread []
  rw [List.append_nil, hnil] at htext
  rw [htext, ← hok]
  cases out with
  | none => exact Iff.rfl
  | some es => rw [Option.bind_some, Option.map_some, List.append_nil]

end

end Exposition
