import Gamelan.Proofs.Notation.WellFormed

namespace Gamelan.Notation

open Gamelan.Text

/-!
# Writing a score down

Every well-formed score has one source text that is its canonical form: a line for the title, one for
the composer, and for each section a line with its title and tempo and one line for each track.

* `print` — the canonical text.
* `StartsWith`, `tokensFrom_of_startsWith` — the first token of a text, by its word.
* `Reads` — what lines without errors make of a score; `Reads.append` composes them.
* `reads_metadataLine`, `reads_heading`, `reads_trackLine` — what one line makes of a score.
* `parse_print` — reading the canonical text of a score gives the score.
-/

/-! ### The canonical text -/

/-- A line for the title or the composer. -/
def metadataLine (key value : String) : List Char :=
  key.toList ++ ' ' :: '=' :: ' ' :: Delimiter.quote.literal value.toList

/-- The first line of a section. -/
def heading (s : Section) : List Char :=
  '[' :: (Delimiter.quote.literal s.title.toList ++ ' ' :: (Nat.toDigits 10 s.tempo ++ [']']))

/-- The line of a track. -/
def trackLine (t : Track) : List Char :=
  t.label.toList ++ ' ' :: Delimiter.bar.literal t.steps

/-- The lines of a section. -/
def sectionLines (s : Section) : List (List Char) :=
  heading s :: s.tracks.map trackLine

/-- The lines of a score. -/
def scoreLines (s : Score) : List (List Char) :=
  metadataLine "title" s.title :: metadataLine "composer" s.composer ::
    s.sections.flatMap sectionLines

/-- Lines, each ended by a line break. -/
def unlines (lines : List (List Char)) : List Char :=
  lines.flatMap (· ++ ['\n'])

/-- The canonical text of a score. -/
def print (s : Score) : List Char :=
  unlines (scoreLines s)

/-! ### The first token -/

/-- Whether a text starts with a token: its kind, its word and what follows the word. -/
def StartsWith (text : List Char) (kind : TokenKind) (word rest : List Char) : Prop :=
  ∃ c tail, word = c :: tail ∧ text = word ++ rest ∧ gap text = [] ∧
    lexeme c (tail ++ rest) = ⟨kind, tail, rest⟩

/-- The token of a word that stands behind `before`. -/
def tokenAt (before : List Char) (kind : TokenKind) (word : List Char) : Token :=
  ⟨kind, ⟨byteLength before, byteLength (before ++ word)⟩⟩

/-- A text that starts with a word gives the token of this word, then those of the rest. -/
theorem tokensFrom_of_startsWith {text word rest : List Char} {kind : TokenKind}
    (h : StartsWith text kind word rest) (before : List Char) :
    tokensFrom (byteLength before) text =
      tokenAt before kind word :: tokensFrom (byteLength (before ++ word)) rest := by
  obtain ⟨c, tail, rfl, rfl, hgap, hlexeme⟩ := h
  have hafter : afterGap (c :: tail ++ rest) = c :: (tail ++ rest) := by
    have := gap_append (c :: tail ++ rest)
    rwa [hgap] at this
  rw [tokensFrom_of_cons _ hafter, hlexeme, hgap, tokenAt, byteLength_append, byteLength_cons]
  simp only [byteLength_nil, Nat.add_zero, Nat.add_assoc]

/-- A blank stands before the first token. -/
theorem tokensFrom_blank (before text : List Char) :
    tokensFrom (byteLength before) (' ' :: text) = tokensFrom (byteLength (before ++ [' '])) text := by
  have hafter : afterGap (' ' :: text) = afterGap text := rfl
  have hgap : gap (' ' :: text) = ' ' :: gap text := rfl
  cases htext : afterGap text with
  | nil => rw [tokensFrom_of_nil _ htext, tokensFrom_of_nil _ (hafter.trans htext)]
  | cons c rest =>
    rw [tokensFrom_of_cons _ htext, tokensFrom_of_cons _ (hafter.trans htext), hgap]
    simp only [byteLength_append, byteLength_cons, byteLength_nil, Nat.add_assoc, Nat.add_zero]

/-- No gap stands before a character that is neither blank nor a slash. -/
theorem gap_of_ne {c : Char} (hblank : isBlank c = false) (hslash : c ≠ '/') (text : List Char) :
    gap (c :: text) = [] := by
  have hstart : (c :: text).takeWhile isBlank = [] := List.takeWhile_cons_of_neg (by simp [hblank])
  have hrest : (c :: text).dropWhile isBlank = c :: text :=
    List.dropWhile_cons_of_neg (by simp [hblank])
  rw [gap, hstart, hrest, comment]
  · rfl
  · rintro rest h
    exact hslash (List.cons.inj h).1

/-- A character is none of those without a property that it has. -/
theorem ne_of_holds {p : Char → Bool} {c : Char} (hc : p c) (d : Char) (hd : p d = false) : c ≠ d := by
  rintro rfl
  rw [hc] at hd
  cases hd

/-- No gap stands before a character with a property that no blank has, nor the slash. -/
theorem gap_of_holds {p : Char → Bool} {c : Char} (hc : p c)
    (hp : [' ', '\t', '\r', '/'].any p = false) (text : List Char) : gap (c :: text) = [] := by
  have hne : ∀ d ∈ [' ', '\t', '\r', '/'], c ≠ d := fun d hd =>
    ne_of_holds hc d (Bool.eq_false_iff.mpr (List.any_eq_false.mp hp d hd))
  have hblank : isBlank c = false := by
    simp [isBlank, hne ' ' (by simp), hne '\t' (by simp), hne '\r' (by simp)]
  exact gap_of_ne hblank (hne '/' (by simp)) text

/-- A sign is a word on its own. -/
theorem startsWith_sign {c : Char} {kind : TokenKind}
    (h : (c, kind) ∈ [('=', TokenKind.equals), ('[', .openBracket), (']', .closeBracket)])
    (rest : List Char) : StartsWith (c :: rest) kind [c] rest := by
  simp only [List.mem_cons, Prod.mk.injEq, List.not_mem_nil, or_false] at h
  obtain ⟨rfl, rfl⟩ | ⟨rfl, rfl⟩ | ⟨rfl, rfl⟩ := h <;>
    exact ⟨_, [], rfl, rfl, gap_of_ne rfl (by decide) rest, rfl⟩

/-- A word that a text goes on with ends where a character does not fit. -/
theorem takeWhile_word {p : Char → Bool} {word rest : List Char} (hword : ∀ c ∈ word, p c)
    (hrest : ∀ c, rest.head? = some c → p c = false) :
    (word ++ rest).takeWhile p = word ∧ (word ++ rest).dropWhile p = rest := by
  rw [List.takeWhile_append_of_pos hword, List.dropWhile_append_of_pos hword]
  cases rest with
  | nil => simp
  | cons c rest =>
    have hc : p c = false := hrest c rfl
    simp [hc]

/-- A literal is a word, whatever follows it. -/
theorem startsWith_literal {d : Delimiter} {inside : List Char} (h : d.Encloses inside)
    (rest : List Char) :
    StartsWith (d.literal inside ++ rest) d.kind (d.literal inside) rest := by
  have hstop : ∀ c, (d.char :: rest).head? = some c → d.goesOn c = false := by
    simp [Delimiter.goesOn]
  obtain ⟨htake, hdrop⟩ := takeWhile_word ((d.encloses_iff inside).mp h) hstop
  have hdelimited : delimited d (inside ++ [d.char] ++ rest) = ⟨d.kind, inside ++ [d.char], rest⟩ := by
    rw [List.append_assoc, List.singleton_append, delimited, htake, hdrop]
    simp
  refine ⟨d.char, inside ++ [d.char], rfl, rfl, ?_, ?_⟩
  · cases d <;> exact gap_of_ne rfl (by decide) _
  · cases d <;> exact hdelimited

/-- No name starts with a digit. -/
theorem isNameStart_of_isDigit {c : Char} (h : c.isDigit) : isNameStart c = false := by
  have hcode : 48 ≤ c.toNat ∧ c.toNat ≤ 57 := by
    simpa [Char.isDigit, UInt32.le_iff_toNat_le] using h
  have hascii : c.toNat < 0x80 := by omega
  have hne : c ≠ '_' := by
    rintro rfl
    simp at hcode
  rw [isNameStart, isAlphabetic_of_lt hascii, Bool.or_eq_false_iff, Bool.eq_false_iff]
  refine ⟨fun hletter => ?_, by simpa using hne⟩
  -- The letters of either case come after the digits.
  obtain hupper | hlower := (Bool.or_eq_true _ _).mp hletter
  · have hafter : 65 ≤ c.toNat := (of_decide_eq_true hupper).1
    omega
  · have hafter : 97 ≤ c.toNat := of_decide_eq_true ((Bool.and_eq_true _ _).mp hlower).1
    omega

/-- A name is a word if what follows it does not go on with it. -/
theorem startsWith_name {word rest : List Char} (h : IsName word)
    (hrest : ∀ c, rest.head? = some c → isNameChar c = false) :
    StartsWith (word ++ rest) .name word rest := by
  cases word with
  | nil => exact absurd h id
  | cons c tail =>
    obtain ⟨hc, htail⟩ := h
    obtain ⟨htake, hdrop⟩ := takeWhile_word htail hrest
    have hne := ne_of_holds hc
    have hdigit : c.isDigit = false := by
      cases hdigit : c.isDigit with
      | false => rfl
      | true =>
        rw [isNameStart_of_isDigit hdigit] at hc
        cases hc
    refine ⟨c, tail, rfl, rfl, gap_of_holds hc rfl _, ?_⟩
    simp [lexeme, name, hc, hdigit, htake, hdrop, hne '\n' rfl, hne '[' rfl, hne ']' rfl,
      hne '=' rfl, hne '"' rfl, hne '|' rfl]

/-- Digits are a word if neither a digit nor a point follows them. -/
theorem startsWith_number {digits rest : List Char} (h : digits ≠ [])
    (hdigits : ∀ c ∈ digits, c.isDigit)
    (hrest : ∀ c, rest.head? = some c → c.isDigit = false ∧ c ≠ '.') :
    StartsWith (digits ++ rest) .number digits rest := by
  obtain ⟨c, tail, rfl⟩ := List.exists_cons_of_ne_nil h
  obtain ⟨hc, htail⟩ := List.forall_mem_cons.mp hdigits
  obtain ⟨htake, hdrop⟩ := takeWhile_word htail fun c hc => (hrest c hc).1
  have hne := ne_of_holds hc
  have hnumber : number (tail ++ rest) = ⟨.number, tail, rest⟩ := by
    rw [number, htake, hdrop]
    split
    · next d more =>
      exact absurd rfl (hrest '.' rfl).2
    · rfl
  refine ⟨c, tail, rfl, rfl, gap_of_holds hc rfl _, ?_⟩
  simp [lexeme, hc, hnumber, hne '\n' rfl, hne '[' rfl, hne ']' rfl, hne '=' rfl, hne '"' rfl,
    hne '|' rfl]

/-- The text of a token is its word. -/
theorem text_tokenAt (before word after : List Char) (kind : TokenKind) :
    (tokenAt before kind word).toLeaf.text (before ++ word ++ after) = word := by
  rw [Node.text]
  show (slice? _ (byteLength before) (byteLength (before ++ word))).getD [] = word
  rw [slice?_append, Option.getD_some]

/-! ### Trees without errors -/

namespace Node

mutual

/-- Moving a node along the text makes no error and removes none. -/
theorem hasError_shift (k : Nat) : ∀ node : Node, (node.shift k).hasError = node.hasError
  | mk kind span children => by rw [shift, hasError, hasError, anyError_shiftAll k children]

theorem anyError_shiftAll (k : Nat) :
    ∀ nodes : List Node, anyError (shiftAll k nodes) = anyError nodes
  | [] => rfl
  | node :: rest => by
    rw [shiftAll, anyError, anyError, hasError_shift k node, anyError_shiftAll k rest]

end

end Node

/-! ### What lines make of a score -/

/-- Whether lines without errors make one score of another. -/
structure Reads (lines : List (List Char)) (score after : Score) : Prop where
  score : lines.foldl readText score = after
  clean : ∀ line ∈ lines, ∀ node ∈ (parseTree line).children, node.hasError = false

theorem Reads.nil (score : Score) : Reads [] score score :=
  ⟨rfl, by simp⟩

/-- Lines read one after the other are read in one go. -/
theorem Reads.append {lines more : List (List Char)} {score middle after : Score}
    (h : Reads lines score middle) (hmore : Reads more middle after) :
    Reads (lines ++ more) score after where
  score := by rw [List.foldl_append, h.score, hmore.score]
  clean := List.forall_mem_append.mpr ⟨h.clean, hmore.clean⟩

/-- What a line makes of a score, by its only statement. -/
theorem reads_of_statement {line : List Char} {first : Token} {tokens : List Token} {node : Node}
    {score after : Score} (htokens : tokensFrom 0 line = first :: tokens)
    (hfirst : first.kind ≠ .newline) (hstatement : statement first tokens = (node, []))
    (hclean : node.hasError = false) (hread : (readNode line score node).1 = after) :
    Reads [line] score after := by
  have hline : (parseTree line).children = [node] := by
    rw [children_parseTree, htokens, statements, if_neg (by simpa using hfirst)]
    simp only [hstatement]
    rw [statements]
  constructor
  · rw [List.foldl_cons, List.foldl_nil, readText, hline, readAll_cons, hread, readAll_nil]
  · simp [hline, hclean]

theorem unlines_cons (line : List Char) (rest : List (List Char)) :
    unlines (line :: rest) = line ++ '\n' :: unlines rest := by
  simp [unlines]

/-- A text that is put together from lines is read line by line. -/
theorem readText_unlines (score : Score) (lines : List (List Char)) :
    readText score (unlines lines) = lines.foldl readText score := by
  induction lines generalizing score with
  | nil =>
    show readAll [] score (parseTree []).children = score
    rw [children_parseTree, tokensFrom_of_nil 0 rfl, statements, readAll_nil]
  | cons line rest ih => rw [unlines_cons, readText_append_newline, ih, List.foldl_cons]

/-- Lines without errors make a text without errors. -/
theorem clean_unlines {lines : List (List Char)}
    (h : ∀ line ∈ lines, ∀ node ∈ (parseTree line).children, node.hasError = false) :
    ∀ node ∈ (parseTree (unlines lines)).children, node.hasError = false := by
  induction lines with
  | nil =>
    show ∀ node ∈ (parseTree []).children, _
    rw [children_parseTree, tokensFrom_of_nil 0 rfl, statements]
    simp
  | cons line rest ih =>
    obtain ⟨hline, hrest⟩ := List.forall_mem_cons.mp h
    rw [unlines_cons, children_parseTree_append_newline, List.forall_mem_append]
    refine ⟨hline, ?_⟩
    intro node hnode
    obtain ⟨original, horiginal, rfl⟩ := List.mem_map.mp hnode
    rw [Node.hasError_shift]
    exact ih hrest original horiginal

/-! ### The three kinds of lines -/

/-- The tokens of a line of metadata: its key, the equals sign and its value. -/
theorem tokensFrom_metadataLine {key value : String} (hkey : IsName key.toList)
    (hvalue : Delimiter.quote.Encloses value.toList) :
    tokensFrom 0 (metadataLine key value) =
      [tokenAt [] .name key.toList, tokenAt (key.toList ++ [' ']) .equals ['='],
        tokenAt (key.toList ++ [' ', '=', ' ']) .string (Delimiter.quote.literal value.toList)] := by
  have hliteral := startsWith_literal hvalue []
  have hequals := startsWith_sign (c := '=') (.head _) (' ' :: Delimiter.quote.literal value.toList)
  rw [List.append_nil] at hliteral
  show tokensFrom (byteLength []) _ = _
  rw [metadataLine, tokensFrom_of_startsWith (startsWith_name hkey (by simp; rfl)),
    tokensFrom_blank, tokensFrom_of_startsWith hequals, tokensFrom_blank,
    tokensFrom_of_startsWith hliteral, tokensFrom_of_nil _ rfl]
  simp [Delimiter.kind]

/-- A line of metadata sets its key, in lower case, to its value. -/
theorem reads_metadataLine {key value : String} (hkey : IsName key.toList)
    (hvalue : Delimiter.quote.Encloses value.toList) (score : Score) :
    Reads [metadataLine key value] score
      (setMetadata score (String.ofList (lowerCase key.toList)) value).1 := by
  have hlabel : (tokenAt [] .name key.toList).toLeaf.text (metadataLine key value) = key.toList :=
    text_tokenAt [] key.toList _ .name
  have hcontent : (tokenAt (key.toList ++ [' ', '=', ' ']) .string
      (Delimiter.quote.literal value.toList)).toLeaf.text (metadataLine key value) =
        Delimiter.quote.literal value.toList := by
    have h := text_tokenAt (key.toList ++ [' ', '=', ' ']) (Delimiter.quote.literal value.toList) []
      .string
    rwa [List.append_nil, List.append_assoc] at h
  refine reads_of_statement (tokensFrom_metadataLine hkey hvalue) TokenKind.noConfusion rfl rfl ?_
  show (setMetadata score (String.ofList (lowerCase (Node.text _ _)))
    (String.ofList (unwrap (Node.text _ _)))).1 = _
  rw [hlabel, hcontent, unwrap_literal, String.ofList_toList]

/-- The tokens of a heading: its title and its tempo, in brackets. -/
theorem tokensFrom_heading {s : Section} (htitle : Delimiter.quote.Encloses s.title.toList) :
    tokensFrom 0 (heading s) =
      [tokenAt [] .openBracket ['['], tokenAt ['['] .string (Delimiter.quote.literal s.title.toList),
        tokenAt ('[' :: (Delimiter.quote.literal s.title.toList ++ [' '])) .number
          (Nat.toDigits 10 s.tempo),
        tokenAt ('[' :: (Delimiter.quote.literal s.title.toList ++ ' ' :: Nat.toDigits 10 s.tempo))
          .closeBracket [']']] := by
  have hdigits : ∀ c ∈ Nat.toDigits 10 s.tempo, c.isDigit :=
    fun c hc => Nat.isDigit_of_mem_toDigits (by decide) (by decide) hc
  have hopen := startsWith_sign (c := '[') (.tail _ (.head _))
    (Delimiter.quote.literal s.title.toList ++ ' ' :: (Nat.toDigits 10 s.tempo ++ [']']))
  have hclose := startsWith_sign (c := ']') (.tail _ (.tail _ (.head _))) []
  have htempo : StartsWith (Nat.toDigits 10 s.tempo ++ [']']) .number (Nat.toDigits 10 s.tempo) [']'] :=
    startsWith_number Nat.toDigits_ne_nil hdigits (by simp)
  show tokensFrom (byteLength []) _ = _
  rw [heading, tokensFrom_of_startsWith hopen, tokensFrom_of_startsWith (startsWith_literal htitle _),
    tokensFrom_blank, tokensFrom_of_startsWith htempo, tokensFrom_of_startsWith hclose,
    tokensFrom_of_nil _ rfl]
  simp [Delimiter.kind]

/-- A tempo of 32 bits is read as it is written. -/
theorem readTempo_toDigits {tempo : Nat} (h : tempo < Nat.pow 2 32) :
    readTempo (Nat.toDigits 10 tempo) = tempo := by
  have hisDigit : ∀ c ∈ Nat.toDigits 10 tempo, c.isDigit :=
    fun c hc => Nat.isDigit_of_mem_toDigits (by decide) (by decide) hc
  have hdigits : (Nat.toDigits 10 tempo ++ []).takeWhile Char.isDigit = Nat.toDigits 10 tempo :=
    (takeWhile_word hisDigit (by simp)).1
  rw [List.append_nil] at hdigits
  have hvalue : Nat.ofDigitChars 10 (Nat.toDigits 10 tempo) 0 = tempo :=
    Nat.ofDigitChars_toDigits (by decide) (by decide)
  rw [Nat.ofDigitChars] at hvalue
  simp only [readTempo, hdigits, hvalue, h, if_true]

/-- A heading adds its section, without tracks yet. -/
theorem reads_heading {s : Section} (hs : s.WellFormed) {score : Score}
    (hid : s.id = score.sections.length) :
    Reads [heading s] score
      { score with sections := score.sections ++ [{ s with tracks := [] }] } := by
  have htitle : (tokenAt ['['] .string (Delimiter.quote.literal s.title.toList)).toLeaf.text
      (heading s) = Delimiter.quote.literal s.title.toList :=
    text_tokenAt ['['] _ (' ' :: (Nat.toDigits 10 s.tempo ++ [']'])) .string
  have htempo : (tokenAt ('[' :: (Delimiter.quote.literal s.title.toList ++ [' '])) .number
      (Nat.toDigits 10 s.tempo)).toLeaf.text (heading s) = Nat.toDigits 10 s.tempo := by
    have h := text_tokenAt ('[' :: (Delimiter.quote.literal s.title.toList ++ [' ']))
      (Nat.toDigits 10 s.tempo) [']'] .number
    simpa [heading] using h
  refine reads_of_statement (tokensFrom_heading hs.title) TokenKind.noConfusion rfl rfl ?_
  show { score with sections := score.sections ++
    [Section.mk _ (String.ofList (unwrap (Node.text _ _))) (readTempo (Node.text _ _)) []] } = _
  rw [htitle, htempo, unwrap_literal, String.ofList_toList, readTempo_toDigits hs.tempo, ← hid]

/-- The tokens of a line of a track: its label and its code. -/
theorem tokensFrom_trackLine {t : Track} (ht : t.WellFormed) :
    tokensFrom 0 (trackLine t) =
      [tokenAt [] .name t.label.toList,
        tokenAt (t.label.toList ++ [' ']) .code (Delimiter.bar.literal t.steps)] := by
  have hliteral := startsWith_literal ht.steps []
  rw [List.append_nil] at hliteral
  show tokensFrom (byteLength []) _ = _
  rw [trackLine, tokensFrom_of_startsWith (startsWith_name ht.label (by simp; rfl)),
    tokensFrom_blank, tokensFrom_of_startsWith hliteral, tokensFrom_of_nil _ rfl]
  simp [Delimiter.kind]

/-- The line of a track adds it to the last section. -/
theorem reads_trackLine {t : Track} (ht : t.WellFormed) (score : Score) (hne : score.sections ≠ []) :
    Reads [trackLine t] score { score with sections := addTrack t score.sections } := by
  have hlabel : (tokenAt [] .name t.label.toList).toLeaf.text (trackLine t) = t.label.toList :=
    text_tokenAt [] t.label.toList _ .name
  have hcode : (tokenAt (t.label.toList ++ [' ']) .code (Delimiter.bar.literal t.steps)).toLeaf.text
      (trackLine t) = Delimiter.bar.literal t.steps := by
    have h := text_tokenAt (t.label.toList ++ [' ']) (Delimiter.bar.literal t.steps) [] .code
    rwa [List.append_nil, List.append_assoc] at h
  refine reads_of_statement (tokensFrom_trackLine ht) TokenKind.noConfusion rfl rfl ?_
  have hempty : score.sections.isEmpty = false := by simpa using hne
  show (if score.sections.isEmpty then (score, _) else
    ({ score with sections := addTrack ⟨String.ofList (Node.text _ _), unwrap (Node.text _ _)⟩ _ },
      ([] : List Remark))).1 = _
  rw [hempty, hlabel, hcode, unwrap_literal, String.ofList_toList]
  rfl

/-! ### All lines of a score -/

/-- The lines of some tracks add them to the last section. -/
theorem reads_tracks {tracks : List Track} (h : ∀ t ∈ tracks, t.WellFormed) (score : Score)
    (before : List Section) (last : Section) :
    Reads (tracks.map trackLine) { score with sections := before ++ [last] }
      { score with sections := before ++ [{ last with tracks := last.tracks ++ tracks }] } := by
  induction tracks generalizing last with
  | nil =>
    rw [List.append_nil]
    exact Reads.nil _
  | cons track rest ih =>
    obtain ⟨htrack, hrest⟩ := List.forall_mem_cons.mp h
    have hline := reads_trackLine htrack { score with sections := before ++ [last] } (by simp)
    rw [addTrack_concat] at hline
    have hlines := hline.append (ih hrest _)
    rwa [List.append_assoc] at hlines

/-- The lines of a section add it to a score that numbers it so. -/
theorem reads_section {s : Section} (hs : s.WellFormed) {score : Score}
    (hid : s.id = score.sections.length) :
    Reads (sectionLines s) score { score with sections := score.sections ++ [s] } :=
  (reads_heading hs hid).append (reads_tracks hs.tracks score _ _)

/-- The lines of some sections add them to a score that numbers them so. -/
theorem reads_sections {sections : List Section} (h : ∀ s ∈ sections, s.WellFormed) {score : Score}
    (hids : sections.map (·.id) = List.range' score.sections.length sections.length) :
    Reads (sections.flatMap sectionLines) score
      { score with sections := score.sections ++ sections } := by
  induction sections generalizing score with
  | nil =>
    rw [List.append_nil]
    exact Reads.nil score
  | cons s rest ih =>
    obtain ⟨hs, hrest⟩ := List.forall_mem_cons.mp h
    rw [List.map_cons, List.length_cons, List.range'_succ] at hids
    obtain ⟨hid, hids⟩ := List.cons.inj hids
    have hlines := (reads_section hs hid).append (ih hrest (by simpa using hids))
    simpa using hlines

/-- The canonical lines of a score, read after nothing, make the score. -/
theorem reads_scoreLines {s : Score} (hs : s.WellFormed) : Reads (scoreLines s) .empty s := by
  have htitle : IsName "title".toList := by decide
  have hcomposer : IsName "composer".toList := by decide
  have hfirst := reads_metadataLine htitle hs.title .empty
  have hsecond := reads_metadataLine hcomposer hs.composer { Score.empty with title := s.title }
  have hids : s.sections.map (·.id) = List.range' 0 s.sections.length := by
    rw [hs.ids, List.range_eq_range']
  rw [lowerCase_of_ascii (by simp)] at hfirst hsecond
  exact (hfirst.append hsecond).append (reads_sections hs.sections hids)

/-- **The canonical text of a score reads as the score**, without errors. -/
theorem parse_print {s : Score} (hs : s.WellFormed) :
    parse (print s) = s ∧ (parseTree (print s)).hasError = false := by
  obtain ⟨hscore, hclean⟩ := reads_scoreLines hs
  constructor
  · rw [parse_eq_readText, print, readText_unlines, hscore]
  · have hkind : (parseTree (print s)).kind = .program := Node.kind_branch _ _ _
    have hnodes : Node.anyError (parseTree (print s)).children = false :=
      (Node.anyError_eq_false_iff _).mpr (clean_unlines hclean)
    rw [Node.hasError_eq, hkind, hnodes]
    rfl

/-- **Well-formed scores are what can be read.**  Every source text reads as a well-formed score.  Every
well-formed score has a text that reads as it without errors, its canonical one.  So a score that was
read and is written down again reads as before. -/
theorem canonical_round_trip :
    (∀ source : List Char, (parse source).WellFormed) ∧
    (∀ s : Score, s.WellFormed → parse (print s) = s ∧ (parseTree (print s)).hasError = false) ∧
    ∀ source : List Char, parse (print (parse source)) = parse source :=
  ⟨wellFormed_parse, fun _ hs => parse_print hs, fun source => (parse_print (wellFormed_parse source)).1⟩

/-- A score whose texts hold brackets, comments, accents and the other kind of literal. -/
def bracketedScore : Score where
  title := "Gong // [8]"
  composer := "| c |"
  sections := [⟨0, "", 4294967295, [⟨"gong_ageng", "\"o ó// ".toList⟩, ⟨"ú-2", []⟩]⟩,
    ⟨1, "pengawak = |o|", 0, []⟩]

/-- It is well formed all the same. -/
theorem wellFormed_bracketedScore : bracketedScore.WellFormed where
  title := by decide
  composer := by decide
  ids := by decide
  sections := by
    intro s hs
    obtain rfl | rfl : s = ⟨0, "", 4294967295, _⟩ ∨ s = ⟨1, "pengawak = |o|", 0, []⟩ := by
      simpa [bracketedScore] using hs
    · refine ⟨by decide, by decide, fun t ht => ?_⟩
      obtain rfl | rfl : t = ⟨"gong_ageng", _⟩ ∨ t = ⟨"ú-2", []⟩ := by simpa using ht
      · exact ⟨by decide, by decide⟩
      · exact ⟨by decide, by decide⟩
    · exact ⟨by decide, by decide, by simp⟩

/-- The score full of brackets is read from its canonical text. -/
theorem canonical_round_trip_bracketedScore :
    bracketedScore.WellFormed ∧ parse (print bracketedScore) = bracketedScore ∧
      (parseTree (print bracketedScore)).hasError = false :=
  ⟨wellFormed_bracketedScore, canonical_round_trip.2.1 bracketedScore wellFormed_bracketedScore⟩

example : print bracketedScore =
    ("title = \"Gong // [8]\"\ncomposer = \"| c |\"\n[\"\" 4294967295]\n" ++
      "gong_ageng |\"o ó// |\nú-2 ||\n[\"pengawak = |o|\" 0]\n").toList := by
  cbv

end Gamelan.Notation
