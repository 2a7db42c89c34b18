import Phaze.Cue.Reading

set_option autoImplicit false

/-!
# Records of a sheet as rows

What the directives of one generated record do to the state of the local parser.
-/

namespace Phaze.Cue

open Phaze.Percent Phaze.Unicode Phaze.Tracklist

variable {budget : LoadBudget} {originKey : Text} {state : CueState} {number : Nat}

/-! ## One line at a time -/

theorem cueStep_quoted {before : String} {inner : Str} (indent word front : Str)
    (shape : str before = indent ++ (word ++ blank :: (front ++ [quoteMark])))
    (spaces : ∀ point ∈ indent, isSpace point = true) (named : word ≠ [])
    (letters : ∀ point ∈ word, isAsciiLetter point = true ∧ point ≠ quoteMark ∧ point ≠ .scalar ';')
    (bare : ∀ point ∈ front, point ≠ quoteMark ∧ point ≠ .scalar ';' ∧ point ≠ newline)
    (starts : (front ++ [quoteMark]).head?.any isSpace = false) (clean : Inner inner)
    (short : (strip (str before ++ inner ++ [quoteMark])).length ≤ 4096) :
    cueStep budget originKey state (str before ++ inner ++ [quoteMark], number) =
      cueDirective budget originKey (word.map upperPoint) (front ++ quoteMark :: (inner ++ [quoteMark])) number state := by
  have line : str before ++ inner ++ [quoteMark] = indent ++ (word ++ blank :: (front ++ quoteMark :: (inner ++ [quoteMark]))) := by
    simp [shape, List.append_assoc]
  have plain : cueLine (word ++ blank :: (front ++ quoteMark :: (inner ++ [quoteMark]))) =
      word ++ blank :: (front ++ quoteMark :: (inner ++ [quoteMark])) := by
    have lead : ∀ point ∈ word ++ blank :: front, point ≠ quoteMark ∧ point ≠ .scalar ';' := by
      intro point member
      obtain inWord | rest := List.mem_append.mp member
      · exact (letters point inWord).2
      · obtain rfl | inFront := List.mem_cons.mp rest
        · decide
        · exact ⟨(bare point inFront).1, (bare point inFront).2.1⟩
    have backless : ∀ point ∈ ([] : Str), point ≠ quoteMark ∧ point ≠ .scalar ';' := fun _ member => absurd member List.not_mem_nil
    have quoted := cueLine_quoted lead (fun point member => (clean point member).2) backless
    simpa [List.append_assoc] using quoted
  rw [line] at short ⊢
  apply cueStep_directive spaces named (fun point member => (letters point member).1) _ (by simp) _ _ plain short
  · cases front with
    | nil => simpa using starts
    | cons point rest => simpa using starts
  · have ends : (front ++ quoteMark :: (inner ++ [quoteMark])).getLast? = some quoteMark := by
      rw [← List.cons_append, ← List.append_assoc, List.getLast?_concat]
    rw [ends]
    decide
  · intro member
    obtain inFront | rest := List.mem_append.mp member
    · exact (bare newline inFront).2.2 rfl
    · obtain same | rest := List.mem_cons.mp rest
      · cases same
      · obtain inInner | last := List.mem_append.mp rest
        · exact clean.feedless inInner
        · exact absurd (List.mem_singleton.mp last) (by decide)

theorem cueDirective_rem (value : Text) : cueDirective budget originKey (str "REM") value number state = state := if_pos rfl

theorem cueDirective_keyword {keyword : String} {value : Text} (other : str keyword ≠ str "REM")
    (plain : (notedKeywords.find? fun noted => str noted = str keyword) = none) :
    cueDirective budget originKey (str keyword) value number state =
      if str keyword = str "FILE" then cueFile originKey value number state
      else if str keyword = str "TRACK" then cueTrack budget value number state
      else if str keyword = str "PERFORMER" then cueName "PERFORMER" value number state
      else if str keyword = str "TITLE" then cueName "TITLE" value number state
      else if str keyword = str "INDEX" then cueIndexLine value number state
      else state.reject number (str "unsupported_" ++ str keyword) := by
  rw [cueDirective, if_neg other, plain]

-- Release facts are comments.
theorem cueStep_release {before : String} (listed : before ∈ ["    REM GENRE \"", "    REM LABEL \"", "    REM YEAR \""])
    {inner : Str} (clean : Inner inner) (short : (strip (str before ++ inner ++ [quoteMark])).length ≤ 4096) :
    cueStep budget originKey state (str before ++ inner ++ [quoteMark], number) = state := by
  have upper : (str "REM").map upperPoint = str "REM" := by decide
  have indent : ∀ point ∈ str "    ", isSpace point = true := by decide
  simp only [List.mem_cons, List.not_mem_nil, or_false] at listed
  obtain rfl | rfl | rfl := listed
  · rw [cueStep_quoted (str "    ") (str "REM") (str "GENRE ") (by decide) indent (by decide) (by decide)
      (by decide) (by decide) clean short, upper, cueDirective_rem]
  · rw [cueStep_quoted (str "    ") (str "REM") (str "LABEL ") (by decide) indent (by decide) (by decide)
      (by decide) (by decide) clean short, upper, cueDirective_rem]
  · rw [cueStep_quoted (str "    ") (str "REM") (str "YEAR ") (by decide) indent (by decide) (by decide)
      (by decide) (by decide) clean short, upper, cueDirective_rem]

theorem cueStep_title {inner : Str} (clean : Inner inner) (short : (strip (str "    TITLE \"" ++ inner ++ [quoteMark])).length ≤ 4096) :
    cueStep budget originKey state (str "    TITLE \"" ++ inner ++ [quoteMark], number) =
      cueName "TITLE" (quoteMark :: (inner ++ [quoteMark])) number state := by
  have upper : (str "TITLE").map upperPoint = str "TITLE" := by decide
  rw [cueStep_quoted (str "    ") (str "TITLE") ([]) (by decide) (by decide) (by decide) (by decide)
    (by decide) (by decide) clean short, upper, cueDirective_keyword (by decide) (by decide)]
  rfl

theorem cueStep_performer {inner : Str} (clean : Inner inner)
    (short : (strip (str "    PERFORMER \"" ++ inner ++ [quoteMark])).length ≤ 4096) :
    cueStep budget originKey state (str "    PERFORMER \"" ++ inner ++ [quoteMark], number) =
      cueName "PERFORMER" (quoteMark :: (inner ++ [quoteMark])) number state := by
  have upper : (str "PERFORMER").map upperPoint = str "PERFORMER" := by decide
  rw [cueStep_quoted (str "    ") (str "PERFORMER") ([]) (by decide) (by decide) (by decide) (by decide)
    (by decide) (by decide) clean short, upper, cueDirective_keyword (by decide) (by decide)]
  rfl

theorem cueStep_comment (short : (strip (str "REM COMMENT \"Generated by Phaze\"")).length ≤ 4096) :
    cueStep budget originKey state (str "REM COMMENT \"Generated by Phaze\"", number) = state := by
  have shape : str "REM COMMENT \"Generated by Phaze\"" = str "REM COMMENT \"" ++ str "Generated by Phaze" ++ [quoteMark] := by decide
  have upper : (str "REM").map upperPoint = str "REM" := by decide
  have clean : ∀ point ∈ str "Generated by Phaze", isControl point = false ∧ point ≠ quoteMark := by decide
  rw [shape] at short ⊢
  rw [cueStep_quoted [] (str "REM") (str "COMMENT ") (by decide) (by decide) (by decide) (by decide) (by decide) (by decide) clean
    short, upper, cueDirective_rem]

theorem kind_plain (fileType : Str) : ∀ point ∈ blank :: str (cueType fileType), point ≠ quoteMark ∧ point ≠ .scalar ';' :=
  @cueType_holds (fun kind => ∀ point ∈ blank :: str kind, point ≠ quoteMark ∧ point ≠ .scalar ';') (by decide) (by decide) fileType

theorem kind_ends (fileType : Str) : (str (cueType fileType)).getLast?.any isSpace = false ∧ newline ∉ str (cueType fileType) ∧
    str (cueType fileType) ≠ [] :=
  @cueType_holds (fun kind => (str kind).getLast?.any isSpace = false ∧ newline ∉ str kind ∧ str kind ≠ []) (by decide) (by decide) fileType

theorem cueStep_file {name fileType : Str} (short : (strip (fileLine name fileType)).length ≤ 4096) :
    cueStep budget originKey state (fileLine name fileType, number) =
      cueFile originKey (quoteMark :: (cueQuote name ++ quoteMark :: blank :: str (cueType fileType))) number state := by
  have inner : Inner (cueQuote name) := cueQuote_clean name
  have head : str "FILE \"" = str "FILE" ++ blank :: [quoteMark] := by decide
  have space : str " " = [blank] := by decide
  have line : fileLine name fileType =
      [] ++ (str "FILE" ++ blank :: (quoteMark :: (cueQuote name ++ quoteMark :: blank :: str (cueType fileType)))) := by
    simp [fileLine, head, space, List.append_assoc]
  have upper : (str "FILE").map upperPoint = str "FILE" := by decide
  have ends := kind_ends fileType
  have quoted := cueLine_quoted (by decide : ∀ point ∈ str "FILE" ++ [blank], point ≠ quoteMark ∧ point ≠ .scalar ';')
    (fun point member => (inner point member).2) (kind_plain fileType)
  rw [List.append_assoc, List.singleton_append] at quoted
  rw [line] at short ⊢
  rw [cueStep_directive (by decide) (by decide) (by decide) (by rfl) (by simp) _ _ quoted short, upper,
    cueDirective_keyword (by decide) (by decide)]
  · rfl
  · rw [← List.cons_append, List.getLast?_append_of_ne_nil _ (by simp), List.getLast?_cons_cons, List.getLast?_cons_of_ne_nil ends.2.2]
    exact ends.1
  · intro member
    obtain same | rest := List.mem_cons.mp member
    · cases same
    · obtain first | rest := List.mem_append.mp rest
      · exact inner.feedless first
      · obtain same | rest := List.mem_cons.mp rest
        · cases same
        · obtain same | rest := List.mem_cons.mp rest
          · cases same
          · exact ends.2.1 rest

theorem printTwo_plain (number : Nat) : ∀ point ∈ printTwo number, point ≠ quoteMark ∧ point ≠ .scalar ';' ∧ point ≠ newline ∧
    isSpace point = false := by
  intro point member
  have ascii := isAsciiDigit_of_mem_printTwo member
  have other : isAsciiDigit quoteMark = false ∧ isAsciiDigit (.scalar ';') = false ∧ isAsciiDigit newline = false := by decide
  refine ⟨?_, ?_, ?_, ?_⟩
  · rintro rfl
    rw [other.1] at ascii
    cases ascii
  · rintro rfl
    rw [other.2.1] at ascii
    cases ascii
  · rintro rfl
    rw [other.2.2] at ascii
    cases ascii
  · simp only [isAsciiDigit, Bool.and_eq_true, decide_eq_true_eq] at ascii
    simp only [isSpace, Bool.or_eq_false_iff, Bool.and_eq_false_iff, decide_eq_false_iff_not]
    omega

theorem printTwo_head (number : Nat) (rest : Str) : (printTwo number ++ rest).head?.any isSpace = false := by
  obtain ⟨first, others, same⟩ := List.exists_cons_of_ne_nil
    (List.ne_nil_of_length_pos (Nat.lt_of_lt_of_le (by decide) (length_printTwo_ge number)))
  have plain := (printTwo_plain number first (same ▸ List.mem_cons_self)).2.2.2
  rw [same, List.cons_append, List.head?_cons, Option.any_some, plain]

theorem cueStep_track {trackNumber : Nat} (short : (strip (trackLine trackNumber)).length ≤ 4096) :
    cueStep budget originKey state (trackLine trackNumber, number) = cueTrack budget (printTwo trackNumber ++ str " AUDIO") number state := by
  have head : str "  TRACK " = str "  " ++ (str "TRACK" ++ [blank]) := by decide
  have line : trackLine trackNumber = str "  " ++ (str "TRACK" ++ blank :: (printTwo trackNumber ++ str " AUDIO")) := by
    simp [trackLine, head, List.append_assoc]
  have upper : (str "TRACK").map upperPoint = str "TRACK" := by decide
  have fixed : ∀ point ∈ str "TRACK" ++ [blank] ++ str " AUDIO", point ≠ quoteMark ∧ point ≠ .scalar ';' ∧ point ≠ newline := by decide
  have plain : cueLine (str "TRACK" ++ blank :: (printTwo trackNumber ++ str " AUDIO")) =
      str "TRACK" ++ blank :: (printTwo trackNumber ++ str " AUDIO") := by
    apply cueLine_bare
    intro point member
    simp only [List.mem_append, List.mem_cons] at member fixed
    obtain inWord | rfl | inNumber | inTail := member
    · exact ⟨(fixed point (by simp [inWord])).1, (fixed point (by simp [inWord])).2.1⟩
    · decide
    · exact ⟨(printTwo_plain trackNumber point inNumber).1, (printTwo_plain trackNumber point inNumber).2.1⟩
    · exact ⟨(fixed point (by simp [inTail])).1, (fixed point (by simp [inTail])).2.1⟩
  rw [line] at short ⊢
  rw [cueStep_directive (by decide) (by decide) (by decide) (printTwo_head trackNumber _) (by simp [str]) _ _ plain short, upper,
    cueDirective_keyword (by decide) (by decide)]
  · rfl
  · rw [List.getLast?_append_of_ne_nil _ (by decide)]
    decide
  · intro member
    obtain inNumber | inTail := List.mem_append.mp member
    · exact (printTwo_plain trackNumber newline inNumber).2.2.1 rfl
    · exact absurd inTail (by decide)

/-! ## Times -/

-- The text of a number of frames.
def stampText (frames : Nat) : Str :=
  printTwo (frames / 75 / 60 : Nat) ++ str ":" ++ printTwo (frames / 75 % 60 : Nat) ++ str ":" ++ printTwo (frames % 75 : Nat)

theorem secondsToCueTimestamp_eq {time : ℚ} (started : 0 ≤ time) : secondsToCueTimestamp time = stampText ⌊75 * time⌋.toNat := by
  rw [secondsToCueTimestamp, totalFrames_eq started]
  rfl

theorem stampText_plain (frames : Nat) : ∀ point ∈ stampText frames, point ≠ quoteMark ∧ point ≠ .scalar ';' ∧ point ≠ newline ∧
    isSpace point = false := by
  have colon : ∀ point ∈ str ":", point ≠ quoteMark ∧ point ≠ .scalar ';' ∧ point ≠ newline ∧ isSpace point = false := by decide
  intro point member
  simp only [stampText, List.mem_append] at member
  obtain (((minutes | first) | seconds) | second) | last := member
  · exact printTwo_plain _ point minutes
  · exact colon point first
  · exact printTwo_plain _ point seconds
  · exact colon point second
  · exact printTwo_plain _ point last

theorem stampText_filled (frames : Nat) : stampText frames ≠ [] := by
  have long := length_printTwo_ge (frames % 75)
  intro empty
  have lengths := congrArg List.length empty
  simp only [stampText, List.length_append, List.length_nil] at lengths
  omega

theorem lastWord_stamp (frames : Nat) : lastWord (str "01 " ++ stampText frames) = stampText frames := by
  have head : str "01 " = str "01" ++ [blank] := by decide
  have spaceless : ∀ point ∈ str "01", isSpace point = false := by decide
  have pieces : (str "01 " ++ stampText frames).splitOnP isSpace = [str "01", stampText frames] := by
    rw [head, List.append_assoc, List.singleton_append,
      List.splitOnP_append_cons_of_forall_mem spaceless blank (by decide),
      List.splitOnP_eq_singleton fun point member => (stampText_plain frames point member).2.2.2]
  have filled : str "01" ≠ [] := by decide
  rw [lastWord, words, pieces]
  simp [filled, stampText_filled frames]

theorem cueStep_index {time : ℚ} (started : 0 ≤ time) (short : (strip (indexLine time)).length ≤ 4096) :
    cueStep budget originKey state (indexLine time, number) =
      cueIndexLine (str "01 " ++ stampText ⌊75 * time⌋.toNat) number state := by
  have head : str "    INDEX 01 " = str "    " ++ (str "INDEX" ++ blank :: str "01 ") := by decide
  have line : indexLine time = str "    " ++ (str "INDEX" ++ blank :: (str "01 " ++ stampText ⌊75 * time⌋.toNat)) := by
    rw [indexLine, secondsToCueTimestamp_eq started, head]
    simp [List.append_assoc]
  generalize ⌊75 * time⌋.toNat = frames at line ⊢
  have upper : (str "INDEX").map upperPoint = str "INDEX" := by decide
  have fixed : ∀ point ∈ str "INDEX" ++ [blank] ++ str "01 ", point ≠ quoteMark ∧ point ≠ .scalar ';' ∧ point ≠ newline := by decide
  have plain : cueLine (str "INDEX" ++ blank :: (str "01 " ++ stampText frames)) =
      str "INDEX" ++ blank :: (str "01 " ++ stampText frames) := by
    apply cueLine_bare
    intro point member
    simp only [List.mem_append, List.mem_cons] at member fixed
    obtain inWord | rfl | inIndex | inStamp := member
    · exact ⟨(fixed point (by simp [inWord])).1, (fixed point (by simp [inWord])).2.1⟩
    · decide
    · exact ⟨(fixed point (by simp [inIndex])).1, (fixed point (by simp [inIndex])).2.1⟩
    · exact ⟨(stampText_plain frames point inStamp).1, (stampText_plain frames point inStamp).2.1⟩
  rw [line] at short ⊢
  rw [cueStep_directive (by decide) (by decide) (by decide) (by rfl) (by simp [str]) _ _ plain short, upper,
    cueDirective_keyword (by decide) (by decide)]
  · rfl
  · obtain ⟨last, same⟩ := Option.isSome_iff_exists.mp (List.getLast?_isSome.mpr (stampText_filled frames))
    rw [List.getLast?_append_of_ne_nil _ (stampText_filled frames), same, Option.any_some]
    exact (stampText_plain frames last (List.mem_of_getLast? same)).2.2.2
  · intro member
    obtain inIndex | inStamp := List.mem_append.mp member
    · exact absurd inIndex (by decide)
    · exact (stampText_plain frames newline inStamp).2.2.1 rfl

end Phaze.Cue
