import ContractLens.Proofs.Fetch.Degrade
import ContractLens.Proofs.Trace
import Mathlib.Data.List.Forall2
/-!
# Inquiries

An inquiry is something to be asked of the network. It becomes one request when its address is read,
and none if the address is none (`asks_sendTo`). A computation that takes inquiries in order asks
all of them unless it fails for good (`Takes`), and computations in a row take the inquiries of the
first and then those of the second (`Takes.bind`).
-/

namespace ContractLens

variable {α β : Type}

/-- Something to be asked of the network. -/
structure Inquiry where
  /-- What is done. -/
  method : Http.Method
  /-- With which resource. -/
  address : String
  /-- What is asked of it. -/
  parameters : List (String × String)
  /-- What is sent. -/
  body : Option Json

/-- The request that an inquiry becomes when its address is read. -/
def Inquiry.Becomes (inquiry : Inquiry) (request : Http.Request) : Prop :=
  ∃ url, Http.Url.read inquiry.address = .ok url ∧
    request = Fetch.requestTo inquiry.method url inquiry.parameters inquiry.body

/-- The requests are those of the inquiries, one for each and in their order. -/
abbrev Sent (inquiries : List Inquiry) (asked : List Http.Request) : Prop :=
  List.Forall₂ Inquiry.Becomes inquiries asked

/-- The requests are those of the first few inquiries. -/
def Begun (inquiries : List Inquiry) (asked : List Http.Request) : Prop :=
  ∃ first, first <+: inquiries ∧ Sent first asked

theorem Sent.append {inquiries others : List Inquiry} {asked rest : List Http.Request}
    (h : Sent inquiries asked) (hrest : Sent others rest) :
    Sent (inquiries ++ others) (asked ++ rest) :=
  List.rel_append h hrest

theorem Sent.begun {inquiries : List Inquiry} {asked : List Http.Request}
    (h : Sent inquiries asked) : Begun inquiries asked :=
  ⟨inquiries, List.prefix_rfl, h⟩

theorem begun_nil (inquiries : List Inquiry) : Begun inquiries [] :=
  ⟨[], List.nil_prefix, .nil⟩

theorem Begun.append {inquiries : List Inquiry} {asked : List Http.Request}
    (h : Begun inquiries asked) (others : List Inquiry) : Begun (inquiries ++ others) asked := by
  obtain ⟨first, hfirst, hsent⟩ := h
  exact ⟨first, hfirst.trans (List.prefix_append _ _), hsent⟩

theorem Sent.append_begun {inquiries others : List Inquiry} {asked rest : List Http.Request}
    (h : Sent inquiries asked) (hrest : Begun others rest) :
    Begun (inquiries ++ others) (asked ++ rest) := by
  obtain ⟨first, hfirst, hsent⟩ := hrest
  exact ⟨inquiries ++ first, (List.prefix_append_right_inj _).mpr hfirst, h.append hsent⟩

/-- The kinds of the requests are those of the inquiries. -/
theorem Sent.methods {inquiries : List Inquiry} {asked : List Http.Request}
    (h : Sent inquiries asked) :
    asked.map Http.Request.method = inquiries.map Inquiry.method := by
  induction h with
  | nil => rfl
  | cons hbecomes _ ih =>
    obtain ⟨url, -, rfl⟩ := hbecomes
    exact congrArg (_ :: ·) ih

theorem Begun.methods {inquiries : List Inquiry} {asked : List Http.Request}
    (h : Begun inquiries asked) :
    asked.map Http.Request.method <+: inquiries.map Inquiry.method := by
  obtain ⟨first, hfirst, hsent⟩ := h
  rw [hsent.methods]
  exact hfirst.map _

/-- The requests are those of some of the inquiries, in their order. -/
def SentSome (inquiries : List Inquiry) (asked : List Http.Request) : Prop :=
  ∃ chosen, chosen.Sublist inquiries ∧ Sent chosen asked

theorem sentSome_nil (inquiries : List Inquiry) : SentSome inquiries [] :=
  ⟨[], List.nil_sublist _, .nil⟩

theorem SentSome.eq_nil {asked : List Http.Request} (h : SentSome [] asked) : asked = [] := by
  obtain ⟨chosen, hchosen, hsent⟩ := h
  rw [List.sublist_nil.mp hchosen] at hsent
  cases hsent
  rfl

theorem SentSome.append {inquiries others : List Inquiry} {asked rest : List Http.Request}
    (h : SentSome inquiries asked) (hrest : SentSome others rest) :
    SentSome (inquiries ++ others) (asked ++ rest) := by
  obtain ⟨chosen, hchosen, hsent⟩ := h
  obtain ⟨more, hmore, hsent'⟩ := hrest
  exact ⟨chosen ++ more, hchosen.append hmore, hsent.append hsent'⟩

theorem SentSome.append_right {inquiries : List Inquiry} {asked : List Http.Request}
    (h : SentSome inquiries asked) (others : List Inquiry) :
    SentSome (inquiries ++ others) asked := by
  obtain ⟨chosen, hchosen, hsent⟩ := h
  exact ⟨chosen, hchosen.trans (List.sublist_append_left _ _), hsent⟩

/-- **An inquiry is made once**: it becomes one request, or its address is none. -/
theorem asks_sendTo (net : Http.Network) (inquiry : Inquiry) (trace : Trace) :
    Asks trace (fun asked answer => Sent [inquiry] asked ∨
        asked = [] ∧ ∃ message, answer = .error (.address message))
      ((Traced.sendTo net inquiry.method inquiry.address inquiry.parameters inquiry.body).run
        trace) := by
  rw [Traced.sendTo]
  split
  · exact asks_nothing rfl (.inr ⟨rfl, _, rfl⟩)
  · rename_i url hurl
    exact ⟨[Fetch.requestTo inquiry.method url inquiry.parameters inquiry.body], rfl,
      .inl (.cons ⟨url, hurl, rfl⟩ .nil)⟩

/-! ## Failures for good -/

/-- A failure after which an attempt is not made again. -/
def Failure.Lasting (failure : Failure) : Prop := RetryPolicy.retries? failure = false

theorem Failure.Lasting.elim {p : Prop} {failure : Failure} (h : failure.Lasting)
    (hagain : RetryPolicy.retries? failure = true) : p := by
  rw [Lasting, hagain] at h
  cases h

/-- A result that is no failure, or one for good. -/
inductive Lasts : Except Failure α → Prop
  /-- It is a value. -/
  | ok (a : α) : Lasts (.ok a)
  /-- The failure is for good. -/
  | error {failure : Failure} (h : failure.Lasting) : Lasts (.error failure)

theorem Lasts.bind {result : Except Failure α} {f : α → Except Failure β} (h : Lasts result)
    (hf : ∀ a, Lasts (f a)) : Lasts (result >>= f) := by
  cases h with
  | ok a => exact hf a
  | error h => exact .error h

theorem Lasts.map {result : Except Failure α} (h : Lasts result) (f : α → β) :
    Lasts (result.map f) := by
  cases h with
  | ok a => exact .ok (f a)
  | error h => exact .error h

theorem lasts_mapM {f : α → Except Failure β} (h : ∀ a, Lasts (f a)) (items : List α) :
    Lasts (items.mapM f) := by
  induction items with
  | nil => exact .ok []
  | cons item items ih =>
    rw [List.mapM_cons]
    exact (h item).bind fun _ => ih.bind fun _ => .ok _

/-! ## Computations that take inquiries -/

/-- What a run asks that takes inquiries in order, and how it ends; `again` says whether it may fail
for the moment. -/
inductive Taken (again : Prop) (inquiries : List Inquiry) :
    List Http.Request → Except Failure α → Prop
  /-- It asks all of them and returns a value. -/
  | returned {asked : List Http.Request} (a : α) :
      Sent inquiries asked → Taken again inquiries asked (.ok a)
  /-- It asks all of them and fails, if it may do so for the moment. -/
  | failed {asked : List Http.Request} (failure : Failure) :
      again → Sent inquiries asked → Taken again inquiries asked (.error failure)
  /-- It asks the first few and fails for good. -/
  | ended {asked : List Http.Request} (failure : Failure) :
      Begun inquiries asked → failure.Lasting → Taken again inquiries asked (.error failure)

/-- A computation that takes inquiries in order. -/
def Takes (again : Prop) (inquiries : List Inquiry) (m : Attempt α) : Prop :=
  ∀ trace, Asks trace (Taken again inquiries) (m.run trace)

section Takes

variable {again : Prop}

theorem takes_pure (a : α) : Takes again [] (pure a : Attempt α) :=
  fun _ => asks_nothing rfl (.returned a .nil)

theorem takes_note (entry : Log.Entry) : Takes again [] (Attempt.note entry) :=
  fun _ => asks_nothing rfl (.returned () .nil)

theorem takes_fail {failure : Failure} (h : failure.Lasting) :
    Takes again [] (Attempt.fail failure : Attempt α) :=
  fun _ => asks_nothing rfl (.ended failure (begun_nil _) h)

theorem takes_fail_again (failure : Failure) :
    Takes True [] (Attempt.fail failure : Attempt α) :=
  fun _ => asks_nothing rfl (.failed failure trivial .nil)

theorem takes_ofExcept {result : Except Failure α} (h : Lasts result) :
    Takes again [] (Attempt.ofExcept result) := by
  cases h with
  | ok a => exact takes_pure a
  | error h => exact takes_fail h

theorem Taken.append {inquiries others : List Inquiry} {asked rest : List Http.Request}
    {result : Except Failure α} (h : Sent inquiries asked)
    (hrest : Taken again others rest result) :
    Taken again (inquiries ++ others) (asked ++ rest) result := by
  cases hrest with
  | returned a hsent => exact .returned a (h.append hsent)
  | failed failure hagain hsent => exact .failed failure hagain (h.append hsent)
  | ended failure hbegun hlasting => exact .ended failure (h.append_begun hbegun) hlasting

theorem Taken.append_nil {inquiries : List Inquiry} {asked rest : List Http.Request}
    {result : Except Failure α} (h : Sent inquiries asked) (hrest : Taken False [] rest result) :
    Taken again inquiries (asked ++ rest) result := by
  cases hrest with
  | returned a hnone => exact .returned a (List.append_nil inquiries ▸ h.append hnone)
  | failed _ hfalse _ => exact hfalse.elim
  | ended failure hnone hlasting =>
    exact .ended failure (List.append_nil inquiries ▸ h.append_begun hnone) hlasting

/-- A run of a computation that takes inquiries. -/
theorem Takes.of_run {inquiries : List Inquiry} {m : Attempt α} (h : Takes again inquiries m)
    {trace after : Trace} {result : Except Failure α} (hrun : m.run trace = (result, after)) :
    ∃ asked, after.requests = trace.requests ++ asked ∧ Taken again inquiries asked result := by
  have htaken := h trace
  rw [hrun] at htaken
  exact htaken

/-- **Inquiries of two computations in a row**, where the first fails for good only. -/
theorem Takes.bind {inquiries others : List Inquiry} {m : Attempt α} {f : α → Attempt β}
    (hm : Takes False inquiries m) (hf : ∀ a, Takes again others (f a)) :
    Takes again (inquiries ++ others) (m >>= f) := by
  intro trace
  refine Attempt.asks_bind (hm trace) ?_ ?_
  case refine_1 =>
    intro a after asked _ htaken
    cases htaken with
    | returned _ hsent => exact (hf a after).imp fun rest => Taken.append hsent
  case refine_2 =>
    intro failure asked htaken
    cases htaken with
    | failed _ hfalse _ => exact hfalse.elim
    | ended _ hbegun hlasting => exact .ended failure (hbegun.append others) hlasting

/-- What comes after inquiries without asking anything. -/
theorem Takes.bind_nil {inquiries : List Inquiry} {m : Attempt α} {f : α → Attempt β}
    (hm : Takes again inquiries m) (hf : ∀ a, Takes False [] (f a)) :
    Takes again inquiries (m >>= f) := by
  intro trace
  refine Attempt.asks_bind (hm trace) ?_ ?_
  case refine_1 =>
    intro a after asked _ htaken
    cases htaken with
    | returned _ hsent => exact (hf a after).imp fun rest => Taken.append_nil hsent
  case refine_2 =>
    intro failure asked htaken
    cases htaken with
    | failed _ hagain hsent => exact .failed failure hagain hsent
    | ended _ hbegun hlasting => exact .ended failure hbegun hlasting

end Takes

end ContractLens
