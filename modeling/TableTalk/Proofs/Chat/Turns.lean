import Mathlib.Logic.ExistsUnique
import Mathlib.Tactic.SplitIfs
import TableTalk.Chat.Pipeline
import TableTalk.Model.Dialogue
import TableTalk.Proofs.Outcome

/-!
# Turns

Users take turns on one pipeline. A turn first needs its rows; without them it is refused and the
model hears nothing of it (`Pipeline.turn_eq`). Where the model is a dialogue, a turn that has its
rows is a function of them and of the next two replies (`Pipeline.run_turn`).

However the turns before it went, a turn ends in one of five ways and in no other
(`Pipeline.exists_ending`). Each way has its own number of requests, its own flag and its own
members (`Ending.mark_eq`). A dialogue that started with some replies is behind as many of them as
there were requests (`Dialogue.InStep`), so no reply is heard twice and none is passed over. The
source is any that reads a world and may change it.
-/

namespace TableTalk

/-- What a user can do. -/
inductive Turn where
  | analyze (question : String) (rows : List Row)
  | ask (question id : String)
  | askAs (user question id : String)

namespace Turn

open Pipeline

variable {m : Type → Type} [Monad m]

def question : Turn → String
  | analyze q _ => q
  | ask q _ => q
  | askAs _ q _ => q

/-- The rows of a source that a question is about, or the refusal. -/
def found (source : Source m) (question id : String) : m (Except Response (List Row)) :=
  if Text.isBlank question || Text.isBlank id then pure (.error (.refused missingInput))
  else do
    match ← source.rows id with
    | .error e => pure (.error (sourceFailure e))
    | .ok rows => pure (.ok rows)

/-- The rows that a turn is about, or the refusal. -/
def rows (source : Source m) : Turn → m (Except Response (List Row))
  | analyze _ rows => pure (.ok rows)
  | ask question id => found source question id
  | askAs user question id => do
    match ← source.owner id with
    | .error e => pure (.error (sourceFailure e))
    | .ok none => found source question id
    | .ok (some owner) =>
      if owner = user then found source question id else pure (.error (.refused unauthorized))

end Turn

namespace Pipeline

section Turn

variable {m : Type → Type} [Monad m] (p : Pipeline m)

def turn : Turn → m Response
  | .analyze question rows => p.analyze question rows
  | .ask question id => p.ask question id
  | .askAs user question id => p.askAs user question id

variable [LawfulMonad m]

theorem ask_eq (question id : String) : p.ask question id = (do
    match ← Turn.found p.source question id with
    | .error r => pure r
    | .ok rows => p.analyze question rows) := by
  unfold ask Turn.found
  split_ifs with hblank
  · rw [pure_bind]
  · rw [bind_assoc]
    refine bind_congr fun found => ?_
    rcases found with e | rows <;> rw [pure_bind]

theorem turn_eq (t : Turn) : p.turn t = (do
    match ← t.rows p.source with
    | .error r => pure r
    | .ok rows => p.analyze t.question rows) := by
  rcases t with ⟨question, rows⟩ | ⟨question, id⟩ | ⟨user, question, id⟩
  · simp only [turn, Turn.rows, pure_bind, Turn.question]
  · exact p.ask_eq question id
  · simp only [turn, askAs, Turn.rows, bind_assoc]
    refine bind_congr fun owner => ?_
    rcases owner with e | _ | owner
    · rw [pure_bind]
    · exact p.ask_eq question id
    · dsimp only
      split_ifs with howner
      · exact p.ask_eq question id
      · rw [pure_bind]

end Turn

end Pipeline

namespace Dialogue

/-- The reply to the request that has so many before it. -/
def reply (replies : List (Except ModelError String)) (n : Nat) : Except ModelError String :=
  replies[n]?.getD (.error .noProvider)

/-- The dialogue started with these replies, and each request has taken one. -/
def InStep (replies : List (Except ModelError String)) (d : Dialogue) : Prop :=
  d.replies = replies.drop d.requests.length

variable {replies : List (Except ModelError String)} {d : Dialogue}

theorem inStep_start : InStep replies ⟨replies, []⟩ := rfl

theorem InStep.next (h : InStep replies d) : d.next = reply replies d.requests.length := by
  rw [Dialogue.next, reply, h, List.head?_drop]

theorem InStep.after (h : InStep replies d) (c : Completion) : InStep replies (d.after c) := by
  show d.replies.tail = replies.drop (d.requests ++ [c]).length
  rw [h, List.tail_drop, List.length_append, List.length_singleton]

theorem InStep.next_after (h : InStep replies d) (c : Completion) :
    (d.after c).next = reply replies (d.requests.length + 1) := by
  rw [(h.after c).next]
  exact congrArg (reply replies) List.length_append

theorem run_model {m : Type → Type} [Monad m] [LawfulMonad m] (d : Dialogue) (c : Completion) :
    (model (m := m) c).run d = pure (d.next, d.after c) := by
  simp [model]

end Dialogue

section Beside

variable {m : Type → Type} [Monad m]

/-- A source beside a dialogue, which it leaves alone. -/
def Source.beside (source : Source m) : Source (StateT Dialogue m) := fun id =>
  StateT.lift (source id)

variable [LawfulMonad m] (source : Source m)

theorem Turn.run_found (question id : String) (d : Dialogue) :
    (found source.beside question id).run d = (·, d) <$> found source question id := by
  unfold found Source.rows Source.beside
  split_ifs with hblank
  · simp
  · simp only [StateT.run_bind, StateT.run_lift, map_eq_pure_bind, bind_assoc, pure_bind]
    refine bind_congr fun dataset => ?_
    rcases dataset with e | dataset <;> simp

theorem Turn.run_rows (t : Turn) (d : Dialogue) :
    (t.rows source.beside).run d = (·, d) <$> t.rows source := by
  rcases t with ⟨question, known⟩ | ⟨question, id⟩ | ⟨user, question, id⟩
  · simp [Turn.rows]
  · exact run_found source question id d
  · simp only [Turn.rows, Source.owner, Source.beside, StateT.run_bind, StateT.run_lift,
      map_eq_pure_bind, bind_assoc, pure_bind]
    refine bind_congr fun dataset => ?_
    rcases dataset with e | ⟨_ | owner, known⟩
    · simp
    · simpa using run_found source question id d
    · simp only [map_ok]
      split_ifs with howner
      · simpa using run_found source question id d
      · simp

end Beside

namespace Pipeline

section Played

variable {m : Type → Type} [Monad m]

/-- A pipeline whose model is a dialogue. -/
def played (source : Source m) (settings : Settings) : Pipeline (StateT Dialogue m) :=
  ⟨source.beside, Dialogue.model, settings⟩

/-- A result in the words of a reply. -/
def worded (rows : List Row) : Except ModelError String → String
  | .ok reply => Text.trim reply
  | .error _ => Prompt.summary rows

/-- The response to a question on some rows, and the dialogue behind it. -/
def outcome (p : Pipeline m) (question : String) (rows : List Row) (d : Dialogue) :
    Response × Dialogue :=
  let heard := d.after (p.classification question (p.schema (p.kept rows)))
  let i := intentOfReply d.next
  match p.evaluate (p.kept rows) i with
  | .error r => (r, heard)
  | .ok (sql, out) =>
    (.answered ⟨worded out heard.next, sql, i, out, Chart.pick i out.length⟩,
      heard.after (p.narration question out))

variable [LawfulMonad m] (source : Source m) (settings : Settings)

theorem run_classify (question : String) (rows : List Row) (d : Dialogue) :
    ((played source settings).classify question rows).run d =
      pure (intentOfReply d.next, d.after ((played source settings).classification question
        ((played source settings).schema rows))) := by
  simp [classify, played, Dialogue.run_model]

theorem run_narrate (question : String) (rows : List Row) (d : Dialogue) :
    ((played source settings).narrate question rows).run d =
      pure (worded rows d.next, d.after ((played source settings).narration question rows)) := by
  unfold narrate
  rw [StateT.run_bind, played, Dialogue.run_model, pure_bind]
  rcases d.next with e | reply <;> rfl

theorem run_analyze (question : String) (rows : List Row) (d : Dialogue) :
    ((played source settings).analyze question rows).run d =
      pure ((played source settings).outcome question rows d) := by
  unfold analyze outcome
  rw [StateT.run_bind, run_classify, pure_bind]
  dsimp only
  rcases (played source settings).evaluate ((played source settings).kept rows)
    (intentOfReply d.next) with r | ⟨sql, out⟩
  · rfl
  · dsimp only
    rw [StateT.run_bind, run_narrate, pure_bind]
    rfl

theorem run_turn (t : Turn) (d : Dialogue) : ((played source settings).turn t).run d = (do
    match ← t.rows source with
    | .error r => pure (r, d)
    | .ok rows => pure ((played source settings).outcome t.question rows d)) := by
  rw [turn_eq, StateT.run_bind, played, Turn.run_rows, map_eq_pure_bind, bind_assoc]
  refine bind_congr fun found => ?_
  rcases found with r | rows <;> rw [pure_bind]
  · rfl
  · exact run_analyze source settings t.question rows d

end Played

section Evaluate

variable {m : Type → Type} (p : Pipeline m) {rows : List Row} {i : Intent}

theorem evaluate_eq_error {r : Response} (h : p.evaluate rows i = .error r) :
    (∃ c reasoning, i = .unknown c reasoning ∧ r = notUnderstood reasoning) ∨
      i.isUnknown = false ∧
        ((∃ e, i.compile p.target (p.schema rows) = .error e ∧ r = notCompiled i e) ∨
          ∃ sql e, i.compile p.target (p.schema rows) = .ok sql ∧
            Store.executeOnce p.settings.analysis.tableName rows sql = .error e ∧
            r = notRun sql e) := by
  rcases i with ⟨a, fs, c, reasoning⟩ | ⟨c, reasoning⟩
  · right
    refine ⟨rfl, ?_⟩
    simp only [evaluate] at h
    split at h
    · rename_i e he
      cases h
      exact .inl ⟨e, he, rfl⟩
    · rename_i sql hsql
      split at h
      · rename_i e he
        cases h
        exact .inr ⟨sql, e, hsql, he, rfl⟩
      · cases h
  · cases h
    exact .inl ⟨c, reasoning, rfl, rfl⟩

theorem evaluate_eq_ok {sql : String} {out : List Row} (h : p.evaluate rows i = .ok (sql, out)) :
    i.isUnknown = false ∧ i.compile p.target (p.schema rows) = .ok sql ∧
      Store.executeOnce p.settings.analysis.tableName rows sql = .ok out := by
  rcases i with ⟨a, fs, c, reasoning⟩ | ⟨c, reasoning⟩
  · refine ⟨rfl, ?_⟩
    simp only [evaluate] at h
    split at h
    · cases h
    · rename_i text htext
      split at h
      · cases h
      · rename_i result hresult
        cases h
        exact ⟨htext, hresult⟩
  · cases h

end Evaluate

end Pipeline

theorem Intent.valid_of_ofReply {reply : String} {i : Intent} (h : ofReply reply = .ok i) :
    i.Valid := by
  rw [ofReply, ofReplyChars, readChars, bind_eq_ok] at h
  obtain ⟨j, -, h⟩ := h
  split at h
  · cases h
  · rename_i hfault
    cases h
    exact hfault

open Pipeline

/-- The reply spells an intent that something can be done with. -/
def Understood (reply : Except ModelError String) (i : Intent) : Prop :=
  (∃ text, reply = .ok text ∧ Intent.ofReply text = .ok i) ∧ i.Valid ∧ i.isUnknown = false

theorem understood_of_isUnknown {reply : Except ModelError String}
    (h : (intentOfReply reply).isUnknown = false) : Understood reply (intentOfReply reply) := by
  rcases reply with e | text
  · cases h
  · rcases hread : Intent.ofReply text with e | i <;> simp only [intentOfReply, hread] at h ⊢
    · cases h
    · exact ⟨⟨text, rfl, hread⟩, Intent.valid_of_ofReply hread, h⟩

theorem intentOfReply_of_understood {reply : Except ModelError String} {i : Intent}
    (h : Understood reply i) : intentOfReply reply = i := by
  obtain ⟨⟨text, rfl, hread⟩, -, -⟩ := h
  simp only [intentOfReply, hread]

/-- Something went wrong, and one of four things is said of it. -/
def Refusal (r : Response) : Prop :=
  r.isError = true ∧ r.details = [] ∧
    r.content ∈ [missingInput, unauthorized, sourceNotFound, internalError]

theorem refusal_refused {content : String}
    (h : content ∈ [missingInput, unauthorized, sourceNotFound, internalError]) :
    Refusal (.refused content) :=
  ⟨rfl, rfl, h⟩

theorem refusal_sourceFailure (e : SourceError) : Refusal (sourceFailure e) := by
  rcases e with _ | _ | _ <;> exact refusal_refused (by simp)

/-- The ways in which a turn ends. -/
inductive Ending where
  | refused
  | notUnderstood
  | notCompiled
  | notRun
  | answered

namespace Ending

variable {m : Type → Type}

/-- A turn that found these rows, or a refusal, ends in this way: with this response, after these
requests, when the replies to come are these two. -/
def Holds (p : Pipeline m) (question : String) (found : Except Response (List Row))
    (first second : Except ModelError String) (r : Response) (asked : List Completion) :
    Ending → Prop
  | refused => found = .error r ∧ asked = [] ∧ Refusal r
  | notUnderstood => ∃ rows, found = .ok rows ∧
      asked = [p.classification question (p.schema (p.kept rows))] ∧
      r.isError = false ∧ r.details = [] ∧ ∀ i, ¬Understood first i
  | notCompiled => ∃ rows i e, found = .ok rows ∧
      asked = [p.classification question (p.schema (p.kept rows))] ∧
      r.isError = true ∧ r.details = [] ∧ Understood first i ∧
      i.compile p.target (p.schema (p.kept rows)) = .error e ∧ r = Pipeline.notCompiled i e
  | notRun => ∃ rows i sql e, found = .ok rows ∧
      asked = [p.classification question (p.schema (p.kept rows))] ∧
      r.isError = true ∧ r.details = [("sql", .str sql)] ∧ Understood first i ∧
      i.compile p.target (p.schema (p.kept rows)) = .ok sql ∧
      Store.executeOnce p.settings.analysis.tableName (p.kept rows) sql = .error e ∧
      r = Pipeline.notRun sql e
  | answered => ∃ rows i sql out, found = .ok rows ∧
      asked = [p.classification question (p.schema (p.kept rows)), p.narration question out] ∧
      r.isError = false ∧
      r.details = [("sql", .str sql), ("intent", i.toJson), ("data", rowsJson out),
        ("rowCount", .int out.length)] ++
          ((Chart.pick i out.length).map fun c => ("chart", c.toJson)).toList ∧
      Understood first i ∧
      i.compile p.target (p.schema (p.kept rows)) = .ok sql ∧
      Store.executeOnce p.settings.analysis.tableName (p.kept rows) sql = .ok out ∧
      r = .answered ⟨worded out second, sql, i, out, Chart.pick i out.length⟩

/-- The number of requests, the flag, and whether there is more than the content. -/
def mark : Ending → Nat × Bool × Bool
  | refused => (0, true, false)
  | notUnderstood => (1, false, false)
  | notCompiled => (1, true, false)
  | notRun => (1, true, true)
  | answered => (2, false, true)

theorem mark_injective : Function.Injective mark := by
  rintro (_ | _ | _ | _ | _) (_ | _ | _ | _ | _) h <;> first | rfl | simp [mark] at h

variable {p : Pipeline m} {question : String} {found : Except Response (List Row)}
  {first second : Except ModelError String} {r : Response} {asked : List Completion} {e e' : Ending}

theorem mark_eq (h : e.Holds p question found first second r asked) :
    e.mark = (asked.length, r.isError, !r.details.isEmpty) := by
  rcases e with _ | _ | _ | _ | _
  · obtain ⟨-, rfl, herror, hdetails, -⟩ := h
    simp [mark, herror, hdetails]
  · obtain ⟨_, -, rfl, herror, hdetails, -⟩ := h
    simp [mark, herror, hdetails]
  · obtain ⟨_, _, _, -, rfl, herror, hdetails, -⟩ := h
    simp [mark, herror, hdetails]
  · obtain ⟨_, _, _, _, -, rfl, herror, hdetails, -⟩ := h
    simp [mark, herror, hdetails]
  · obtain ⟨_, _, _, _, -, rfl, herror, hdetails, -⟩ := h
    simp [mark, herror, hdetails]

theorem holds_unique (h : e.Holds p question found first second r asked)
    (h' : e'.Holds p question found first second r asked) : e = e' :=
  mark_injective ((mark_eq h).trans (mark_eq h').symm)

end Ending

namespace Pipeline

open Dialogue

section Outcome

variable {m : Type → Type} (p : Pipeline m) {replies : List (Except ModelError String)}
  {d : Dialogue}

theorem outcome_ending (hd : InStep replies d) (question : String) (rows : List Row) :
    ∃ r d' asked, p.outcome question rows d = (r, d') ∧ d'.requests = d.requests ++ asked ∧
      InStep replies d' ∧ ∃ e : Ending, e.Holds p question (.ok rows)
        (reply replies d.requests.length) (reply replies (d.requests.length + 1)) r asked := by
  have hheard := hd.after (p.classification question (p.schema (p.kept rows)))
  rw [← hd.next, ← hd.next_after (p.classification question (p.schema (p.kept rows)))]
  rcases heval : p.evaluate (p.kept rows) (intentOfReply d.next) with r | ⟨sql, out⟩ <;>
    simp only [outcome, heval]
  · refine ⟨r, _, [p.classification question (p.schema (p.kept rows))], rfl, rfl, hheard, ?_⟩
    rcases p.evaluate_eq_error heval with
      ⟨c, reasoning, hunknown, rfl⟩ | ⟨hknown, ⟨e, hcompile, rfl⟩ | ⟨sql, e, hcompile, hrun, rfl⟩⟩
    · refine ⟨.notUnderstood, rows, rfl, rfl, rfl, rfl, fun i hi => ?_⟩
      have hknown := hi.2.2
      rw [← intentOfReply_of_understood hi, hunknown] at hknown
      cases hknown
    · exact ⟨.notCompiled, rows, _, e, rfl, rfl, rfl, rfl, understood_of_isUnknown hknown,
        hcompile, rfl⟩
    · exact ⟨.notRun, rows, _, sql, e, rfl, rfl, rfl, rfl, understood_of_isUnknown hknown,
        hcompile, hrun, rfl⟩
  · obtain ⟨hknown, hcompile, hrun⟩ := p.evaluate_eq_ok heval
    exact ⟨_, _, [p.classification question (p.schema (p.kept rows)), p.narration question out],
      rfl, List.append_assoc .., hheard.after _, .answered, rows, _, sql, out, rfl, rfl, rfl, rfl,
      understood_of_isUnknown hknown, hcompile, hrun, rfl⟩

end Outcome

section Run

variable {σ : Type} (source : Source (StateM σ)) (settings : Settings)
  {replies : List (Except ModelError String)} {d : Dialogue}

theorem refusal_found {question id : String} {w w' : σ} {r : Response}
    (h : (Turn.found source question id).run w = (.error r, w')) : Refusal r := by
  unfold Turn.found Source.rows at h
  split_ifs at h with hblank
  · cases h
    exact refusal_refused (by simp)
  · rcases hdataset : (source id).run w with ⟨e | dataset, w₁⟩ <;>
      rw [bind_assoc, run_bind_of_run hdataset] at h
    · cases h
      exact refusal_sourceFailure e
    · cases h

theorem refusal_rows {t : Turn} {w w' : σ} {r : Response}
    (h : (t.rows source).run w = (.error r, w')) : Refusal r := by
  rcases t with ⟨question, known⟩ | ⟨question, id⟩ | ⟨user, question, id⟩
  · cases h
  · exact refusal_found source h
  · rcases hdataset : (source id).run w with ⟨e | ⟨_ | owner, known⟩, w₁⟩ <;>
      rw [Turn.rows, Source.owner, bind_assoc, run_bind_of_run hdataset, pure_bind] at h
    · cases h
      exact refusal_sourceFailure e
    · exact refusal_found source h
    · simp only [map_ok] at h
      split_ifs at h with howner
      · exact refusal_found source h
      · cases h
        exact refusal_refused (by simp)

/-- A turn asks for itself what comes next, and ends in one way. -/
theorem run_turn_ending (hd : InStep replies d) (t : Turn) (w : σ) :
    ∃ found r asked d' w', (t.rows source).run w = (found, w') ∧
      (((played source settings).turn t).run d).run w = ((r, d'), w') ∧
      d'.requests = d.requests ++ asked ∧ InStep replies d' ∧
      ∃ e : Ending, e.Holds (played source settings) t.question found
        (reply replies d.requests.length) (reply replies (d.requests.length + 1)) r asked := by
  rcases hfound : (t.rows source).run w with ⟨r | rows, w'⟩
  · refine ⟨_, r, [], d, w', rfl, ?_, (List.append_nil _).symm, hd, .refused, rfl, rfl,
      refusal_rows source hfound⟩
    rw [run_turn, run_bind_of_run hfound]
    rfl
  · obtain ⟨r, d', asked, hr, hasked, hd', e, he⟩ :=
      outcome_ending (played source settings) hd t.question rows
    refine ⟨_, r, asked, d', w', rfl, ?_, hasked, hd', e, he⟩
    rw [run_turn, run_bind_of_run hfound, ← hr]
    rfl

theorem run_turns_inStep : ∀ (ts : List Turn) {d : Dialogue}, InStep replies d → ∀ w : σ,
    ∃ rs d' w', ((ts.mapM (played source settings).turn).run d).run w = ((rs, d'), w') ∧
      InStep replies d'
  | [], d, hd, w => ⟨[], d, w, rfl, hd⟩
  | t :: ts, d, hd, w => by
    obtain ⟨_, r, _, d₁, w₁, -, hr, -, hd₁, -⟩ := run_turn_ending source settings hd t w
    obtain ⟨rs, d', w', hrs, hd'⟩ := run_turns_inStep ts hd₁ w₁
    refine ⟨r :: rs, d', w', ?_, hd'⟩
    rw [List.mapM_cons, StateT.run_bind, run_bind_of_run hr, StateT.run_bind,
      run_bind_of_run hrs]
    rfl

/-- Whatever was said before and whatever the source has done since, a turn ends in one of the five
ways, and it takes the replies that come next. -/
theorem exists_ending (replies : List (Except ModelError String)) (before : List Turn) (t : Turn)
    (w : σ) :
    ∃ responses earlier w₁ found r asked now w₂,
      ((before.mapM (played source settings).turn).run ⟨replies, []⟩).run w =
        ((responses, earlier), w₁) ∧
      (t.rows source).run w₁ = (found, w₂) ∧
      (((played source settings).turn t).run earlier).run w₁ = ((r, now), w₂) ∧
      now.requests = earlier.requests ++ asked ∧
      now.replies = replies.drop now.requests.length ∧
      ∃! e : Ending, e.Holds (played source settings) t.question found
        (reply replies earlier.requests.length) (reply replies (earlier.requests.length + 1))
        r asked := by
  have hstart : InStep replies ⟨replies, []⟩ := inStep_start
  obtain ⟨responses, earlier, w₁, hbefore, hearlier⟩ :=
    run_turns_inStep source settings before hstart w
  obtain ⟨found, r, asked, now, w₂, hfound, hr, hasked, hnow, e, he⟩ :=
    run_turn_ending source settings hearlier t w₁
  exact ⟨responses, earlier, w₁, found, r, asked, now, w₂, hbefore, hfound, hr, hasked, hnow, e, he,
    fun e' he' => Ending.holds_unique he' he⟩

end Run

end Pipeline

end TableTalk
