import Mathlib.Algebra.BigOperators.Group.List.Basic
import MLRunX.NextPath

namespace MLRunX.CsvFiles

open NextPath (isJsSpace)

def trim (cs : List Char) : List Char := (cs.dropWhile isJsSpace).rdropWhile isJsSpace

def replaceQuotes (text : List Char) : List Char := text.flatMap (fun c => if c = '"' then ['"', '"'] else [c])

def csvCell (text : List Char) : List Char :=
  if ',' ∈ text ∨ '"' ∈ text ∨ '\n' ∈ text then '"' :: (replaceQuotes text ++ ['"']) else text

def csvRow (row : List (List Char)) : List Char := [','].intercalate (row.map csvCell)

/-- The text of a file that is downloaded. -/
def payload (rows : List (List (List Char))) : List Char := ['\n'].intercalate (rows.map csvRow)

/-- The cells that end in what is left of a line, where one has been read in part. -/
def parseFrom : Bool → List Char → List Char → List (List Char)
  | _, current, [] => [trim current]
  | true, current, '"' :: '"' :: rest => parseFrom true (current ++ ['"']) rest
  | inQuotes, current, c :: rest =>
      if c = '"' then parseFrom (!inQuotes) current rest
      else if c = ',' && !inQuotes then trim current :: parseFrom inQuotes [] rest
      else parseFrom inQuotes (current ++ [c]) rest

def parseCsvLine (line : List Char) : List (List Char) := parseFrom false [] line

/-- Lines end with a line feed, and with a carriage return before it. -/
def splitLines : List Char → List (List Char)
  | [] => [[]]
  | '\r' :: '\n' :: rest => [] :: splitLines rest
  | c :: rest => if c = '\n' then [] :: splitLines rest else (splitLines rest).modifyHead (c :: ·)

def readLines (content : List Char) : List (List Char) :=
  ((splitLines content).map trim).filter (fun line => !line.isEmpty)

def readRows (content : List Char) : List (List (List Char)) := (readLines content).map parseCsvLine

/-! Space around a text. -/

theorem trim_cons {c : Char} (hc : isJsSpace c = true) (cs : List Char) : trim (c :: cs) = trim cs := by
  rw [trim, trim, List.dropWhile_cons_of_pos hc]

theorem trim_concat {c : Char} (hc : isJsSpace c = true) (cs : List Char) : trim (cs ++ [c]) = trim cs := by
  have hrdrop : ∀ ds : List Char, (ds ++ [c]).rdropWhile isJsSpace = ds.rdropWhile isJsSpace := fun ds =>
    List.rdropWhile_concat_pos _ _ _ hc
  rw [trim, trim]
  induction cs with
  | nil => simp [List.dropWhile, hc]
  | cons d cs ih =>
      cases hd : isJsSpace d with
      | true => rw [List.cons_append, List.dropWhile_cons_of_pos hd, List.dropWhile_cons_of_pos hd, ih]
      | false =>
          rw [List.cons_append, List.dropWhile_cons_of_neg (by simp [hd]), List.dropWhile_cons_of_neg (by simp [hd]),
            ← List.cons_append, hrdrop]

theorem trim_ne_nil {cs : List Char} {c : Char} (hc : c ∈ cs) (hspace : isJsSpace c = false) : trim cs ≠ [] := by
  intro hnil
  have hall := List.rdropWhile_eq_nil_iff.mp hnil
  have hmem : c ∈ cs.dropWhile isJsSpace := by
    rw [← List.takeWhile_append_dropWhile (p := isJsSpace) (l := cs)] at hc
    rcases List.mem_append.mp hc with hc | hc
    · rw [List.mem_takeWhile_imp hc] at hspace
      cases hspace
    · exact hc
  rw [hall c hmem] at hspace
  cases hspace

/-- A text is what is left of it between the space that comes off. -/
theorem exists_trim (cs : List Char) : ∃ front back, cs = front ++ trim cs ++ back ∧
    (∀ c ∈ front, isJsSpace c = true) ∧ ∀ c ∈ back, isJsSpace c = true := by
  refine ⟨cs.takeWhile isJsSpace, (cs.dropWhile isJsSpace).rtakeWhile isJsSpace, ?_, ?_, ?_⟩
  · rw [trim, List.append_assoc, List.rdropWhile_append_rtakeWhile, List.takeWhile_append_dropWhile]
  · exact fun c hc => List.mem_takeWhile_imp hc
  · exact fun c hc => List.mem_rtakeWhile_imp hc

/-! Reading a line. -/

theorem space_other {c : Char} (hc : isJsSpace c = true) : c ≠ '"' ∧ c ≠ ',' :=
  ⟨fun heq => by simp [heq, isJsSpace] at hc, fun heq => by simp [heq, isJsSpace] at hc⟩

theorem parseFrom_nil (inQuotes : Bool) (current : List Char) : parseFrom inQuotes current [] = [trim current] := by
  cases inQuotes <;> rfl

/-- A character of a line that is not the first of a pair of quotes. -/
theorem parseFrom_cons_eq {inQuotes : Bool} {c : Char} {rest : List Char}
    (h : inQuotes = true → c = '"' → rest.head? ≠ some '"') (current : List Char) :
    parseFrom inQuotes current (c :: rest) =
      if c = '"' then parseFrom (!inQuotes) current rest
      else if c = ',' && !inQuotes then trim current :: parseFrom inQuotes [] rest
      else parseFrom inQuotes (current ++ [c]) rest := by
  rw [parseFrom]
  rintro rest' hq hc rfl
  exact h hq hc rfl

theorem parseFrom_pair (current rest : List Char) :
    parseFrom true current ('"' :: '"' :: rest) = parseFrom true (current ++ ['"']) rest := rfl

theorem parseFrom_other {c : Char} (hquote : c ≠ '"') {inQuotes : Bool} (hcomma : c ≠ ',' ∨ inQuotes = true)
    (current rest : List Char) : parseFrom inQuotes current (c :: rest) = parseFrom inQuotes (current ++ [c]) rest := by
  rw [parseFrom_cons_eq (fun _ hc => absurd hc hquote), if_neg hquote, if_neg]
  rcases hcomma with hcomma | rfl <;> simp [*]

theorem parseFrom_quote {inQuotes : Bool} {rest : List Char} (h : inQuotes = true → rest.head? ≠ some '"')
    (current : List Char) : parseFrom inQuotes current ('"' :: rest) = parseFrom (!inQuotes) current rest := by
  rw [parseFrom_cons_eq (fun hq _ => h hq), if_pos rfl]

theorem parseFrom_comma (current rest : List Char) :
    parseFrom false current (',' :: rest) = trim current :: parseFrom false [] rest := by
  rw [parseFrom_cons_eq (fun hq _ => absurd hq Bool.false_ne_true), if_neg (by decide), if_pos (by decide)]

theorem head_of_not_pair {inQuotes : Bool} {rest : List Char}
    (h : ∀ rest', inQuotes = true → '"' = '"' → rest = '"' :: rest' → False) (hq : inQuotes = true) :
    rest.head? ≠ some '"' := by
  intro hhead
  cases rest with
  | nil => cases hhead
  | cons d rest => exact h rest hq rfl (congrArg (· :: rest) (Option.some.inj hhead))

theorem of_not_cut {c : Char} {inQuotes : Bool} (h : ¬ (decide (c = ',') && !inQuotes) = true) :
    c ≠ ',' ∨ inQuotes = true := by
  cases inQuotes with
  | true => exact .inr rfl
  | false => exact .inl (by simpa using h)

theorem parseFrom_cons {c : Char} (hc : isJsSpace c = true) (inQuotes : Bool) (current line : List Char) :
    parseFrom inQuotes (c :: current) line = parseFrom inQuotes current line := by
  fun_induction parseFrom inQuotes current line generalizing c with
  | case1 inQuotes current => rw [parseFrom_nil, trim_cons hc]
  | case2 current rest ih => rw [parseFrom_pair, List.cons_append, ih hc]
  | case3 inQuotes current rest hnot ih =>
      rw [parseFrom_quote (head_of_not_pair hnot), ih hc]
  | case4 inQuotes current d rest hnot hd hcut ih =>
      simp only [Bool.and_eq_true, decide_eq_true_eq, Bool.not_eq_true'] at hcut
      obtain ⟨rfl, rfl⟩ := hcut
      rw [parseFrom_comma, trim_cons hc]
  | case5 inQuotes current d rest hnot hd hcut ih =>
      rw [parseFrom_other hd (of_not_cut hcut), List.cons_append, ih hc]

theorem parseFrom_concat {c : Char} (hc : isJsSpace c = true) (inQuotes : Bool) (current line : List Char) :
    parseFrom inQuotes current (line ++ [c]) = parseFrom inQuotes current line := by
  obtain ⟨hquote, hcomma⟩ := space_other hc
  fun_induction parseFrom inQuotes current line with
  | case1 inQuotes current =>
      rw [List.nil_append, parseFrom_other hquote (.inl hcomma), parseFrom_nil, trim_concat hc]
  | case2 current rest ih =>
      rw [List.cons_append, List.cons_append, parseFrom_pair, ih]
  | case3 inQuotes current rest hnot ih =>
      rw [List.cons_append, parseFrom_quote, ih]
      intro hq hhead
      cases rest with
      | nil => exact hquote (Option.some.inj hhead)
      | cons d rest => exact head_of_not_pair hnot hq hhead
  | case4 inQuotes current d rest hnot hd hcut ih =>
      simp only [Bool.and_eq_true, decide_eq_true_eq, Bool.not_eq_true'] at hcut
      obtain ⟨rfl, rfl⟩ := hcut
      rw [List.cons_append, parseFrom_comma, ih]
  | case5 inQuotes current d rest hnot hd hcut ih =>
      rw [List.cons_append, parseFrom_other hd (of_not_cut hcut), ih]

theorem parseCsvLine_trim (line : List Char) : parseCsvLine (trim line) = parseCsvLine line := by
  obtain ⟨front, back, hline, hfront, hback⟩ := exists_trim line
  generalize trim line = middle at hline
  subst hline
  have hfronts : ∀ rest, parseCsvLine (front ++ rest) = parseCsvLine rest := by
    intro rest
    induction front with
    | nil => rfl
    | cons c front ih =>
        obtain ⟨hc, hrest⟩ := List.forall_mem_cons.mp hfront
        obtain ⟨hquote, hcomma⟩ := space_other hc
        rw [List.cons_append, parseCsvLine, parseFrom_other hquote (.inl hcomma), List.nil_append, parseFrom_cons hc]
        exact ih hrest
  rw [List.append_assoc, hfronts]
  induction back using List.reverseRecOn with
  | nil => rw [List.append_nil]
  | append_singleton back c ih =>
      rw [ih (fun d hd => hback d (by simp [hd])), ← List.append_assoc]
      exact (parseFrom_concat (hback c (by simp)) _ _ _).symm

/-! What is written is read. -/

theorem parseFrom_plain {text : List Char} (h : ',' ∉ text ∧ '"' ∉ text) (current rest : List Char) :
    parseFrom false current (text ++ rest) = parseFrom false (current ++ text) rest := by
  induction text generalizing current with
  | nil => rw [List.append_nil, List.nil_append]
  | cons c text ih =>
      simp only [List.mem_cons, not_or] at h
      obtain ⟨⟨hcomma, hcommas⟩, hquote, hquotes⟩ := h
      rw [List.cons_append, parseFrom_other (Ne.symm hquote) (.inl (Ne.symm hcomma)), ih ⟨hcommas, hquotes⟩,
        List.append_assoc, List.singleton_append]

theorem parseFrom_quoted (text current rest : List Char) :
    parseFrom true current (replaceQuotes text ++ rest) = parseFrom true (current ++ text) rest := by
  induction text generalizing current with
  | nil => rw [List.append_nil, replaceQuotes, List.flatMap_nil, List.nil_append]
  | cons c text ih =>
      have hcons : replaceQuotes (c :: text) = (if c = '"' then ['"', '"'] else [c]) ++ replaceQuotes text := rfl
      rw [hcons]
      split
      · rename_i hc
        rw [hc]
        simp only [List.cons_append, List.nil_append, parseFrom_pair, ih, List.append_assoc]
      · rename_i hc
        rw [List.singleton_append, List.cons_append, parseFrom_other hc (.inr rfl), ih, List.append_assoc,
          List.singleton_append]

theorem parseFrom_csvCell (text : List Char) {rest : List Char} (hrest : rest.head? ≠ some '"') :
    parseFrom false [] (csvCell text ++ rest) = parseFrom false text rest := by
  rw [csvCell]
  split
  · rw [List.cons_append, List.append_assoc, parseFrom_quote (fun h => absurd h Bool.false_ne_true),
      Bool.not_false, parseFrom_quoted, List.singleton_append, parseFrom_quote (fun _ => hrest), Bool.not_true,
      List.nil_append]
  · rename_i hplain
    obtain ⟨hcomma, hquote, -⟩ := not_or.mp hplain |>.imp id not_or.mp
    rw [parseFrom_plain ⟨hcomma, hquote⟩, List.nil_append]

theorem parseCsvLine_csvRow {row : List (List Char)} (hrow : row ≠ []) :
    parseCsvLine (csvRow row) = row.map trim := by
  induction row with
  | nil => exact absurd rfl hrow
  | cons cell row ih =>
      cases row with
      | nil =>
          have h := parseFrom_csvCell cell (show ([] : List Char).head? ≠ some '"' by simp)
          simpa [csvRow, parseCsvLine, parseFrom_nil] using h
      | cons next row =>
          have hcons : csvRow (cell :: next :: row) = csvCell cell ++ ',' :: csvRow (next :: row) := by
            simp [csvRow, List.intercalate_cons_cons]
          rw [hcons, parseCsvLine, parseFrom_csvCell cell (by simp), parseFrom_comma, List.map_cons]
          exact congrArg _ (ih (List.cons_ne_nil _ _))

/-! Lines. -/

/-- A carriage return at the end of a line is space there. -/
theorem splitLines_splitOn (content : List Char) :
    List.Forall₂ (fun line piece => piece = line ∨ piece = line ++ ['\r']) (splitLines content)
      (content.splitOn '\n') := by
  fun_induction splitLines content with
  | case1 => exact .cons (.inl rfl) .nil
  | case2 rest ih =>
      rw [List.splitOn_cons_eq_if_modifyHead, if_neg (by decide), List.splitOn_cons_eq_if_modifyHead,
        if_pos (by decide)]
      exact .cons (.inr rfl) ih
  | case3 rest hnot ih =>
      rw [List.splitOn_cons_eq_if_modifyHead, if_pos (by decide)]
      exact .cons (.inl rfl) ih
  | case4 c rest hnot hc ih =>
      rw [List.splitOn_cons_eq_if_modifyHead, if_neg (by simpa using hc)]
      generalize splitLines rest = lines, rest.splitOn '\n' = pieces at ih
      cases ih with
      | nil => exact .nil
      | cons hpiece hpieces =>
          exact .cons (hpiece.imp (congrArg (c :: ·)) (congrArg (c :: ·))) hpieces

theorem readLines_eq (content : List Char) :
    readLines content = ((content.splitOn '\n').map trim).filter (fun line => !line.isEmpty) := by
  have h := splitLines_splitOn content
  rw [readLines]
  congr 1
  generalize splitLines content = lines, content.splitOn '\n' = pieces at h
  induction h with
  | nil => rfl
  | cons hpiece _ ih =>
      rw [List.map_cons, List.map_cons, ih]
      rcases hpiece with rfl | rfl
      · rfl
      · rw [trim_concat (by decide)]

theorem readLines_append (front back : List Char) :
    readLines (front ++ '\n' :: back) = readLines front ++ readLines back := by
  rw [readLines_eq, readLines_eq, readLines_eq, List.splitOn_append_cons_self, List.map_append, List.filter_append]

theorem readLines_single {line : List Char} (hline : '\n' ∉ line) (hne : trim line ≠ []) :
    readLines line = [trim line] := by
  rw [readLines_eq, List.splitOn_eq_singleton hline]
  simp [hne]

theorem exists_piece {c d : Char} (hne : c ≠ d) {cs : List Char} (hc : c ∈ cs) :
    ∃ piece ∈ cs.splitOn d, c ∈ piece := by
  induction cs with
  | nil => exact absurd hc List.not_mem_nil
  | cons e cs ih =>
      rw [List.splitOn_cons_eq_if_modifyHead]
      cases hpieces : cs.splitOn d with
      | nil => exact absurd hpieces (List.splitOn_ne_nil d cs)
      | cons piece pieces =>
          rcases List.mem_cons.mp hc with rfl | hc
          · rw [if_neg (by simpa using hne)]
            exact ⟨c :: piece, List.mem_cons_self, List.mem_cons_self⟩
          · obtain ⟨found, hfound, hmem⟩ := ih hc
            rw [hpieces] at hfound
            split
            · exact ⟨found, List.mem_cons_of_mem _ hfound, hmem⟩
            · rcases List.mem_cons.mp hfound with rfl | hfound
              · exact ⟨e :: found, List.mem_cons_self, List.mem_cons_of_mem _ hmem⟩
              · exact ⟨found, List.mem_cons_of_mem _ hfound, hmem⟩

theorem readLines_pos {c : Char} {cs : List Char} (hc : c ∈ cs) (hspace : isJsSpace c = false) :
    0 < (readLines cs).length := by
  have hne : c ≠ '\n' := fun heq => by simp [heq, isJsSpace] at hspace
  obtain ⟨piece, hpiece, hmem⟩ := exists_piece hne hc
  rw [readLines_eq]
  apply List.length_pos_of_mem
  exact List.mem_filter.mpr ⟨List.mem_map_of_mem hpiece, by simpa using trim_ne_nil hmem hspace⟩

/-! Where the characters of a cell come from. -/

theorem mem_of_piece {c d : Char} {cs piece : List Char} (hpiece : piece ∈ cs.splitOn d) (hc : c ∈ piece) :
    c ∈ cs := by
  induction cs generalizing piece with
  | nil =>
      rw [List.splitOn_nil, List.mem_singleton] at hpiece
      rwa [hpiece] at hc
  | cons e cs ih =>
      rw [List.splitOn_cons_eq_if_modifyHead] at hpiece
      split at hpiece
      · rcases List.mem_cons.mp hpiece with rfl | hpiece
        · exact absurd hc List.not_mem_nil
        · exact List.mem_cons_of_mem _ (ih hpiece hc)
      · cases hpieces : cs.splitOn d with
        | nil => exact absurd hpieces (List.splitOn_ne_nil d cs)
        | cons first rest =>
            rw [hpieces] at ih hpiece
            rcases List.mem_cons.mp hpiece with rfl | hpiece
            · rcases List.mem_cons.mp hc with rfl | hc
              · exact List.mem_cons_self
              · exact List.mem_cons_of_mem _ (ih List.mem_cons_self hc)
            · exact List.mem_cons_of_mem _ (ih (List.mem_cons_of_mem _ hpiece) hc)

theorem mem_of_mem_trim {c : Char} {cs : List Char} (h : c ∈ trim cs) : c ∈ cs :=
  (List.dropWhile_suffix _).subset ((List.rdropWhile_prefix _ _).subset h)

theorem mem_of_line {c : Char} {content line : List Char} (hline : line ∈ readLines content) (hc : c ∈ line) :
    c ∈ content := by
  rw [readLines_eq] at hline
  obtain ⟨piece, hpiece, rfl⟩ := List.mem_map.mp (List.mem_filter.mp hline).1
  exact mem_of_piece hpiece (mem_of_mem_trim hc)

theorem mem_of_cell {c : Char} {inQuotes : Bool} {current line cell : List Char}
    (hcell : cell ∈ parseFrom inQuotes current line) (hc : c ∈ cell) : c ∈ current ∨ c ∈ line := by
  fun_induction parseFrom inQuotes current line with
  | case1 inQuotes current =>
      rw [List.mem_singleton] at hcell
      exact .inl (mem_of_mem_trim (hcell ▸ hc))
  | case2 current rest ih =>
      rcases ih hcell with h | h
      · rcases List.mem_append.mp h with h | h
        · exact .inl h
        · exact .inr (by simp [List.mem_singleton.mp h])
      · exact .inr (by simp [h])
  | case3 inQuotes current rest hnot ih => exact (ih hcell).imp id (List.mem_cons_of_mem _)
  | case4 inQuotes current d rest hnot hd hcut ih =>
      rcases List.mem_cons.mp hcell with rfl | hcell
      · exact .inl (mem_of_mem_trim hc)
      · rcases ih hcell with h | h
        · exact absurd h List.not_mem_nil
        · exact .inr (List.mem_cons_of_mem _ h)
  | case5 inQuotes current d rest hnot hd hcut ih =>
      rcases ih hcell with h | h
      · rcases List.mem_append.mp h with h | h
        · exact .inl h
        · exact .inr (by simp [List.mem_singleton.mp h])
      · exact .inr (List.mem_cons_of_mem _ h)

theorem csvRow_cons_cons (cell next : List Char) (row : List (List Char)) :
    csvRow (cell :: next :: row) = csvCell cell ++ ',' :: csvRow (next :: row) := by
  simp [csvRow, List.intercalate_cons_cons]

theorem payload_cons_cons (row next : List (List Char)) (rows : List (List (List Char))) :
    payload (row :: next :: rows) = csvRow row ++ '\n' :: payload (next :: rows) := by
  simp [payload, List.intercalate_cons_cons]

theorem newline_mem_csvCell {text : List Char} : '\n' ∈ csvCell text ↔ '\n' ∈ text := by
  rw [csvCell]
  split
  · simp only [replaceQuotes, List.mem_cons, List.mem_append, List.mem_flatMap, List.not_mem_nil]
    constructor
    · rintro (h | ⟨c, hc, hin⟩ | h | h)
      · exact absurd h (by decide)
      · split at hin
        · simp at hin
        · rw [List.mem_singleton.mp hin]
          exact hc
      · exact absurd h (by decide)
      · exact absurd h id
    · intro h
      exact .inr (.inl ⟨'\n', h, by simp⟩)
  · rfl

theorem newline_mem_csvRow {row : List (List Char)} : '\n' ∈ csvRow row ↔ ∃ cell ∈ row, '\n' ∈ cell := by
  induction row with
  | nil => simp [csvRow]
  | cons cell row ih =>
      cases row with
      | nil => simp [csvRow, newline_mem_csvCell]
      | cons next row =>
          rw [csvRow_cons_cons, List.mem_append, List.mem_cons, ih, newline_mem_csvCell]
          simp

theorem comma_mem_csvRow {row : List (List Char)} (hrow : 2 ≤ row.length) : ',' ∈ csvRow row := by
  obtain _ | ⟨cell, _ | ⟨next, row⟩⟩ := row
  · exact absurd hrow (by simp)
  · exact absurd hrow (by simp)
  · rw [csvRow_cons_cons]
    simp

/-- A row with a line feed takes more than a line. -/
theorem two_lines {row : List (List Char)} (h : '\n' ∈ csvRow row) : 2 ≤ (readLines (csvRow row)).length := by
  have hquotes : ∃ front back, csvRow row = front ++ '\n' :: back ∧ '"' ∈ front ∧ '"' ∈ back := by
    have hcell : ∀ {cell : List Char}, '\n' ∈ cell →
        ∃ front back, csvCell cell = front ++ '\n' :: back ∧ '"' ∈ front ∧ '"' ∈ back := by
      intro cell hmem
      obtain ⟨front, back, hsplit⟩ := List.append_of_mem hmem
      refine ⟨'"' :: replaceQuotes front, replaceQuotes back ++ ['"'], ?_, by simp, by simp⟩
      rw [csvCell, if_pos (.inr (.inr hmem)), hsplit]
      simp [replaceQuotes, List.flatMap_append, List.flatMap_cons]
    obtain ⟨cell, hmem, hnewline⟩ := newline_mem_csvRow.mp h
    clear h
    induction row with
    | nil => exact absurd hmem List.not_mem_nil
    | cons first row ih =>
        cases row with
        | nil =>
            obtain rfl := List.mem_singleton.mp hmem
            simpa [csvRow] using hcell hnewline
        | cons next row =>
            rw [csvRow_cons_cons]
            rcases List.mem_cons.mp hmem with rfl | hmem
            · obtain ⟨front, back, hsplit, hfront, hback⟩ := hcell hnewline
              exact ⟨front, back ++ ',' :: csvRow (next :: row), by rw [hsplit]; simp, hfront, by simp [hback]⟩
            · obtain ⟨front, back, hsplit, hfront, hback⟩ := ih hmem
              exact ⟨csvCell first ++ ',' :: front, back, by rw [hsplit]; simp, by simp [hfront], hback⟩
  obtain ⟨front, back, hsplit, hfront, hback⟩ := hquotes
  have hf := readLines_pos hfront rfl
  have hb := readLines_pos hback rfl
  rw [hsplit, readLines_append, List.length_append]
  omega

theorem readLines_csvRow {row : List (List Char)} (hrow : 2 ≤ row.length) (h : '\n' ∉ csvRow row) :
    readLines (csvRow row) = [trim (csvRow row)] :=
  readLines_single h (trim_ne_nil (comma_mem_csvRow hrow) rfl)

theorem readLines_payload (rows : List (List (List Char))) :
    readLines (payload rows) = rows.flatMap (fun row => readLines (csvRow row)) := by
  induction rows with
  | nil => decide
  | cons row rows ih =>
      cases rows with
      | nil => simp [payload]
      | cons next rows =>
          rw [payload_cons_cons, readLines_append, ih]
          rfl

/-- A file that was written is read back up to the space around its cells, exactly when no cell
breaks a line. -/
theorem readRows_payload_iff (rows : List (List (List Char))) (hrows : ∀ row ∈ rows, 2 ≤ row.length) :
    readRows (payload rows) = rows.map (fun row => row.map trim) ↔
      ∀ row ∈ rows, ∀ cell ∈ row, '\n' ∉ cell := by
  have hbroken : ∀ row : List (List Char), (∀ cell ∈ row, '\n' ∉ cell) ↔ '\n' ∉ csvRow row := by
    intro row
    rw [newline_mem_csvRow]
    simp
  simp only [hbroken]
  constructor
  · intro h row hrow hmem
    have hlines : ∀ row ∈ rows, 1 ≤ (readLines (csvRow row)).length := fun row hrow =>
      readLines_pos (comma_mem_csvRow (hrows row hrow)) rfl
    have hlen := congrArg List.length h
    rw [readRows, readLines_payload, List.length_map, List.length_map, List.length_flatMap] at hlen
    have htwo := two_lines hmem
    obtain ⟨before, behind, rfl⟩ := List.append_of_mem hrow
    have hbefore := List.length_le_sum_of_one_le (before.map (fun row => (readLines (csvRow row)).length))
      (List.forall_mem_map.mpr (fun row hrow => hlines row (List.mem_append_left _ hrow)))
    have hbehind := List.length_le_sum_of_one_le (behind.map (fun row => (readLines (csvRow row)).length))
      (List.forall_mem_map.mpr (fun row hrow => hlines row (List.mem_append_right _ (List.mem_cons_of_mem _ hrow))))
    simp only [List.map_append, List.map_cons, List.sum_append, List.sum_cons, List.length_append, List.length_cons,
      List.length_map] at hlen hbefore hbehind
    omega
  · intro h
    rw [readRows, readLines_payload]
    induction rows with
    | nil => rfl
    | cons row rows ih =>
        obtain ⟨hrow, hrest⟩ := List.forall_mem_cons.mp hrows
        obtain ⟨hplain, hplains⟩ := List.forall_mem_cons.mp h
        have hne : row ≠ [] := fun heq => by simp [heq] at hrow
        rw [List.flatMap_cons, readLines_csvRow hrow hplain, List.singleton_append, List.map_cons,
          parseCsvLine_trim, parseCsvLine_csvRow hne, ih hrest hplains, List.map_cons]

theorem readRows_payload_quoted :
    readRows (payload [["run".toList, "last".toList], ["a,\"b\"".toList, " 0.5".toList]]) =
        [["run".toList, "last".toList], ["a,\"b\"".toList, " 0.5".toList]].map (fun row => row.map trim) ↔
      ∀ row ∈ [["run".toList, "last".toList], ["a,\"b\"".toList, " 0.5".toList]], ∀ cell ∈ row, '\n' ∉ cell :=
  readRows_payload_iff _ (by simp)

end MLRunX.CsvFiles
