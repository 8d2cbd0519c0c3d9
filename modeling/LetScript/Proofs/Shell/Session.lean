import LetScript.Proofs.Evaluation.Reachable
import LetScript.Shell.Session

/-! What an interactive session writes. Its input is cut into lines, and each line of text
is answered by itself, from the state that the lines before it left. A line that is blank
or no program leaves that state alone, so all other lines are answered alike without it. -/
namespace LetScript.Shell

/-! ### Lines -/

/-- Each line ends with its only newline, except that the last one may have none. -/
inductive AreLines : List (List UInt8) → Prop where
  | nil : AreLines []
  | last {text : List UInt8} (hne : text ≠ []) (htext : newline ∉ text) : AreLines [text]
  | cons (text : List UInt8) {rest : List (List UInt8)} (htext : newline ∉ text)
      (hrest : AreLines rest) : AreLines ((text ++ [newline]) :: rest)

theorem flatten_lines (input : List UInt8) : (lines input).flatten = input := by
  fun_induction lines input with
  | case1 => rfl
  | case2 rest ih => simp [ih]
  | case3 byte rest hbyte hnil ih => simpa [hnil] using ih
  | case4 byte rest hbyte first others hlines ih =>
    rw [hlines] at ih
    simpa using ih

theorem areLines_lines (input : List UInt8) : AreLines (lines input) := by
  fun_induction lines input with
  | case1 => exact .nil
  | case2 rest ih => exact .cons [] List.not_mem_nil ih
  | case3 byte rest hbyte hnil ih =>
    exact .last (List.cons_ne_nil _ _) (by simpa using Ne.symm hbyte)
  | case4 byte rest hbyte first others hlines ih =>
    rw [hlines] at ih
    cases ih with
    | last hne htext =>
      exact .last (List.cons_ne_nil _ _) (by simp [htext, Ne.symm hbyte])
    | cons text htext hrest =>
      exact .cons (byte :: text) (by simp [htext, Ne.symm hbyte]) hrest

variable {text : List UInt8} {pieces kept : List (List UInt8)}

theorem lines_of_notMem (hne : text ≠ []) (htext : newline ∉ text) : lines text = [text] := by
  induction text with
  | nil => exact absurd rfl hne
  | cons byte rest ih =>
    rw [List.mem_cons, not_or] at htext
    obtain ⟨hbyte, hrest⟩ := htext
    rw [lines, if_neg (Ne.symm hbyte)]
    by_cases hnil : rest = []
    · rw [hnil, lines]
    · rw [ih hnil hrest]

theorem lines_append (htext : newline ∉ text) (rest : List UInt8) :
    lines (text ++ newline :: rest) = (text ++ [newline]) :: lines rest := by
  induction text with
  | nil => simp [lines]
  | cons byte more ih =>
    rw [List.mem_cons, not_or] at htext
    obtain ⟨hbyte, hmore⟩ := htext
    rw [List.cons_append, lines, if_neg (Ne.symm hbyte), ih hmore, List.cons_append]

theorem AreLines.lines_flatten (h : AreLines pieces) : lines pieces.flatten = pieces := by
  induction h with
  | nil => rfl
  | last hne htext => simp [lines_of_notMem hne htext]
  | cons text htext hrest ih => simp [lines_append htext, ih]

/-- There is one way to cut an input. -/
theorem areLines_iff {input : List UInt8} :
    AreLines pieces ∧ pieces.flatten = input ↔ pieces = lines input := by
  constructor
  · rintro ⟨h, rfl⟩
    exact h.lines_flatten.symm
  · rintro rfl
    exact ⟨areLines_lines input, flatten_lines input⟩

theorem AreLines.sublist (h : AreLines pieces) (hsub : kept.Sublist pieces) : AreLines kept := by
  induction h generalizing kept with
  | nil => exact List.sublist_nil.mp hsub ▸ .nil
  | last hne htext =>
    rcases List.sublist_cons_iff.mp hsub with hsub | ⟨more, rfl, hmore⟩
    · exact List.sublist_nil.mp hsub ▸ .nil
    · exact List.sublist_nil.mp hmore ▸ .last hne htext
  | cons text htext hrest ih =>
    rcases List.sublist_cons_iff.mp hsub with hsub | ⟨more, rfl, hmore⟩
    · exact ih hsub
    · exact .cons text htext (ih hmore)

/-! ### Answers -/

namespace Session

variable {depth : Nat} {session session' : Session}

/-- What comes of a line of text. A blank one gets no response. -/
def answer (depth : Nat) (text : String) : StateT Session Option (Option Response) := fun session =>
  let text := withoutLineEnd text
  if Text.isBlankText text then some (none, session)
  else (session.process depth text).map fun (response, session) => (some response, session)

/-- What is written up to the next prompt: each response after the prompt for its line. -/
def written (responses : List (Option Response)) : String :=
  String.join (responses.map fun response => prompt ++ (response.map Response.output).getD "")

theorem mapM_answer_cons (text : String) (texts : List String) :
    (text :: texts).mapM (answer depth) session =
      (answer depth text session).bind fun (response, session) =>
        (texts.mapM (answer depth) session).map fun (responses, session) =>
          (response :: responses, session) := by
  rw [List.mapM_cons]
  show Option.bind _ _ = _
  refine congrArg _ (funext fun (response, session) => ?_)
  show Option.bind _ _ = Option.map _ _
  rw [Option.map_eq_bind]
  rfl

theorem respond_eq_answer (text : String) : session.respond depth text =
    (answer depth text session).map fun (response, session) =>
      ((response.map Response.output).getD "", session) := by
  by_cases h : Text.isBlankText (withoutLineEnd text) = true
  · simp [respond, answer, h]
  · simp [respond, answer, h, Function.comp_def]

theorem written_cons (response : Option Response) (responses : List (Option Response)) :
    written (response :: responses) =
      prompt ++ (response.map Response.output).getD "" ++ written responses := by
  simp [written]

/-- Lines of text are answered in order, and the session goes on with the lines after them. -/
theorem respondAll_append (depth : Nat) (session : Session) {before : List (List UInt8)}
    {texts : List String} (h : before.mapM decode = some texts) (rest : List (List UInt8)) :
    session.respondAll depth (before ++ rest) =
      (texts.mapM (answer depth) session).bind fun (responses, session) =>
        (session.respondAll depth rest).map fun transcript =>
          { transcript with output := written responses ++ transcript.output } := by
  induction before generalizing texts session with
  | nil =>
    cases h
    show _ = Option.map (fun transcript : Transcript => { transcript with
      output := "" ++ transcript.output }) (session.respondAll depth rest)
    simp
  | cons line before ih =>
    rw [List.mapM_cons] at h
    obtain ⟨text, htext, h⟩ := Option.bind_eq_some_iff.mp h
    obtain ⟨texts, htexts, ⟨⟩⟩ := Option.bind_eq_some_iff.mp h
    rw [List.cons_append, respondAll, htext, mapM_answer_cons, Option.bind_assoc]
    show Option.bind _ _ = _
    rw [respond_eq_answer, Option.bind_map]
    refine congrArg _ (funext fun (response, session) => ?_)
    show Option.bind (session.respondAll depth (before ++ rest)) _ = Option.bind (Option.map _ _) _
    rw [ih session htexts, Option.bind_map, Option.bind_assoc]
    refine congrArg _ (funext fun (responses, session) => ?_)
    rw [Option.bind_map]
    show _ = Option.map _ (session.respondAll depth rest)
    cases session.respondAll depth rest with
    | none => rfl
    | some transcript => simp [written_cons, String.append_assoc]

/-! ### Lines left out -/

/-- Of a blank line or one that is no program. -/
def Idle (response : Option Response) : Prop :=
  ∀ r ∈ response, r.outcome = .parseFailed

theorem eq_of_process {text : String} {response : Response}
    (h : session.process depth text = some (response, session'))
    (hfailed : response.outcome = .parseFailed) : session' = session := by
  obtain ⟨mode, interpreter⟩ := session
  cases mode with
  | lex => cases h; rfl
  | parse =>
    rw [process] at h
    dsimp only at h
    split at h <;> cases h <;> rfl
  | eval =>
    obtain ⟨⟨result, interpreter'⟩, hrun, h⟩ := Option.map_eq_some_iff.mp h
    cases result with
    | ok value =>
      cases h
      simp only [Response.ofValue] at hfailed
      split at hfailed <;> cases hfailed
    | error diagnostics =>
      cases h
      rw [Interpreter.run_eq_some_error hrun]

theorem eq_of_answer {text : String} {response : Option Response}
    (h : answer depth text session = some (response, session')) (hidle : Idle response) :
    session' = session := by
  by_cases hblank : Text.isBlankText (withoutLineEnd text) = true
  · simp only [answer, hblank, if_true] at h
    cases h
    rfl
  · simp only [answer, hblank] at h
    obtain ⟨⟨_, _⟩, hprocess, ⟨⟩⟩ := Option.map_eq_some_iff.mp h
    exact eq_of_process hprocess (hidle _ rfl)

/-- The session answers each line with the response beside it. -/
def Answers (depth : Nat) (session : Session) (exchanges : List (List UInt8 × Option Response))
    (session' : Session) : Prop :=
  ∃ texts, (exchanges.map Prod.fst).mapM decode = some texts ∧
    texts.mapM (answer depth) session = some (exchanges.map Prod.snd, session')

variable {line : List UInt8} {response : Option Response}
  {exchanges rest : List (List UInt8 × Option Response)}

theorem answers_cons_iff : session.Answers depth ((line, response) :: rest) session' ↔
    ∃ text between, decode line = some text ∧
      answer depth text session = some (response, between) ∧
      between.Answers depth rest session' := by
  constructor
  · rintro ⟨texts, hdecode, h⟩
    rw [List.map_cons, List.mapM_cons] at hdecode
    obtain ⟨text, htext, hdecode⟩ := Option.bind_eq_some_iff.mp hdecode
    obtain ⟨texts, htexts, ⟨⟩⟩ := Option.bind_eq_some_iff.mp hdecode
    rw [mapM_answer_cons] at h
    obtain ⟨⟨first, between⟩, hanswer, h⟩ := Option.bind_eq_some_iff.mp h
    obtain ⟨⟨responses, _⟩, hrest, heq⟩ := Option.map_eq_some_iff.mp h
    cases heq
    exact ⟨text, between, htext, hanswer, texts, htexts, hrest⟩
  · rintro ⟨text, between, htext, hanswer, texts, htexts, hrest⟩
    refine ⟨text :: texts, ?_, ?_⟩
    · simp [htext, htexts]
    · rw [mapM_answer_cons, hanswer]
      show Option.map _ (texts.mapM (answer depth) between) = _
      rw [hrest]
      rfl

/-- Some of the members that have the property are left out. -/
inductive LeavesOut {α : Type} (p : α → Prop) : List α → List α → Prop where
  | nil : LeavesOut p [] []
  | keep {a : α} {all kept : List α} (h : LeavesOut p all kept) : LeavesOut p (a :: all) (a :: kept)
  | leave {a : α} {all kept : List α} (ha : p a) (h : LeavesOut p all kept) :
      LeavesOut p (a :: all) kept

theorem LeavesOut.sublist {α : Type} {p : α → Prop} {all kept : List α} (h : LeavesOut p all kept) :
    kept.Sublist all := by
  induction h with
  | nil => exact .slnil
  | keep _ ih => exact ih.cons_cons _
  | leave _ _ ih => exact ih.cons _

theorem Answers.leavesOut {kept : List (List UInt8 × Option Response)}
    (h : session.Answers depth exchanges session')
    (hkept : LeavesOut (fun exchange => Idle exchange.2) exchanges kept) :
    session.Answers depth kept session' := by
  induction hkept generalizing session with
  | nil => exact h
  | keep _ ih =>
    obtain ⟨text, between, htext, hanswer, hrest⟩ := answers_cons_iff.mp h
    exact answers_cons_iff.mpr ⟨text, between, htext, hanswer, ih hrest⟩
  | leave hidle _ ih =>
    obtain ⟨text, between, _, hanswer, hrest⟩ := answers_cons_iff.mp h
    obtain rfl := eq_of_answer hanswer hidle
    exact ih hrest

/-- An interactive session cuts its input after each newline and answers the lines in order, each
after a prompt, up to the end of the input or the first line that is not text, where a last prompt
is written. If all lines are text, any that are blank or no program can be left out: all others are
answered as before, and the session ends in the same state. -/
theorem interact_line_by_line (depth : Nat) (session : Session) (input : List UInt8) :
    (∀ pieces, AreLines pieces ∧ pieces.flatten = input ↔ pieces = lines input) ∧
    (∀ texts, (lines input).mapM decode = some texts →
      session.interact depth input = (texts.mapM (answer depth) session).map
        fun (responses, session) => ⟨written responses ++ prompt, .endOfInput, session⟩) ∧
    (∀ before line after texts, lines input = before ++ line :: after →
      before.mapM decode = some texts → decode line = none →
      session.interact depth input = (texts.mapM (answer depth) session).map
        fun (responses, session) => ⟨written responses ++ prompt, .invalidText, session⟩) ∧
    ∀ exchanges kept session', exchanges.map Prod.fst = lines input →
      session.Answers depth exchanges session' →
      LeavesOut (fun exchange => Idle exchange.2) exchanges kept →
      lines (kept.map Prod.fst).flatten = kept.map Prod.fst ∧
        session.Answers depth kept session' := by
  refine ⟨fun pieces => areLines_iff, fun texts htexts => ?_,
    fun before line after texts hlines htexts hline => ?_,
    fun exchanges kept session' hexchanges hanswers hkept => ⟨?_, hanswers.leavesOut hkept⟩⟩
  · have h := respondAll_append depth session htexts []
    rw [List.append_nil] at h
    rw [interact, h, Option.map_eq_bind]
    rfl
  · rw [interact, hlines, respondAll_append depth session htexts, Option.map_eq_bind]
    simp only [respondAll, hline]
    rfl
  · have hlines : AreLines (exchanges.map Prod.fst) := hexchanges ▸ areLines_lines input
    exact (hlines.sublist (hkept.sublist.map Prod.fst)).lines_flatten

/-- A text that is no program, a blank line and a last line without a newline. -/
def mixedInput : List UInt8 :=
  "let a = 5;\nlet x 5;\n \t\r\na * 2".toUTF8.data.toList

/-- The lines in it with the responses to them. -/
def mixedExchanges : List (List UInt8 × Option Response) :=
  [("let a = 5;\n".toUTF8.data.toList, some ⟨.ok, "nil\n"⟩),
    ("let x 5;\n".toUTF8.data.toList, some (.ofDiagnostics [.unexpectedToken .equal .int])),
    (" \t\r\n".toUTF8.data.toList, none), ("a * 2".toUTF8.data.toList, some ⟨.ok, "10\n"⟩)]

/-- Without the two lines in the middle the session says the same to the others and ends in the same
state. Where a line is not text, nothing after it counts. -/
theorem interact_mixedInput :
    let session : Session := .new .eval
    let session' : Session := ⟨.eval, ⟨⟨#[⟨[("a", .int 5)], none⟩], 0⟩, 0⟩⟩
    lines mixedInput = mixedExchanges.map Prod.fst ∧
    session.interact 0 mixedInput = some ⟨">> nil\n>> " ++ banner ++
      "\texpected next token to be ASSIGN, got INT instead\n>> >> 10\n>> ", .endOfInput, session'⟩ ∧
    session.Answers 0 mixedExchanges session' ∧
    session.Answers 0 [mixedExchanges[0], mixedExchanges[3]] session' ∧
    session.interact 0 [0x35, newline, 0xFF, newline, 0x36] =
      some ⟨">> 5\n>> ", .invalidText, session⟩ := by
  intro session session'
  have hlines : lines mixedInput = mixedExchanges.map Prod.fst := by decide +kernel
  have hdecode : (lines mixedInput).mapM decode =
      some ["let a = 5;\n", "let x 5;\n", " \t\r\n", "a * 2"] := by
    decide +kernel
  have hresponses : ["let a = 5;\n", "let x 5;\n", " \t\r\n", "a * 2"].mapM (answer 0) session =
      some (mixedExchanges.map Prod.snd, session') := by
    decide +kernel
  have hanswers : session.Answers 0 mixedExchanges session' :=
    ⟨_, hlines ▸ hdecode, hresponses⟩
  have hkept : LeavesOut (fun exchange => Idle exchange.2) mixedExchanges
      [mixedExchanges[0], mixedExchanges[3]] :=
    .keep (.leave (fun _ h => by cases h; rfl) (.leave nofun (.keep .nil)))
  refine ⟨hlines, ?_, hanswers, ?_, ?_⟩
  · rw [(interact_line_by_line 0 session mixedInput).2.1 _ hdecode, hresponses]
    decide +kernel
  · exact ((interact_line_by_line 0 session mixedInput).2.2.2 _ _ _ hlines.symm hanswers hkept).2
  · rw [(interact_line_by_line 0 session _).2.2.1 [[0x35, newline]] [0xFF, newline] [[0x36]] ["5\n"]
      (by decide +kernel) (by decide +kernel) (by decide +kernel)]
    decide +kernel

end Session

end LetScript.Shell
