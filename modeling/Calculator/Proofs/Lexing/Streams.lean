import Calculator.Proofs.Lexing.Growth

namespace Calculator.Source

-- What can be asked of a source, and the growth of its stream.
inductive Request where
  | peek
  | read
  | append (added : List Char)

-- What is answered: the next character, which stays or is taken. There is none at the end.
inductive Answer where
  | seen (next : Option Char)
  | taken (next : Option Char)
  deriving DecidableEq

namespace Request

def added : Request → List Char
  | append added => added
  | peek | read => []

def isAppend : Request → Bool
  | append _ => true
  | peek | read => false

def isRead : Request → Bool
  | read => true
  | peek | append _ => false

end Request

-- The character that an answer takes.
def Answer.chars : Answer → List Char
  | taken next => next.toList
  | seen _ => []

def serve (source : Source) : Request → List Answer × Source
  | .peek => ([.seen source.peek.1], source.peek.2)
  | .read => ([.taken source.read.1], source.read.2)
  | .append added => ([], source.append added)

def serveAll (source : Source) : List Request → List Answer × Source
  | [] => ([], source)
  | request :: rest =>
    let served := source.serve request
    let others := served.2.serveAll rest
    (served.1 ++ others.1, others.2)

-- The character that was looked at and not yet read.
def ahead : Source → List Char
  | stream (some seen) _ => seen.toList
  | stream none _ | text _ => []

-- The characters that were not yet asked for.
def toCome : Source → List Char
  | stream _ pending => pending
  | text rest => rest

-- That a source is a stream to which some characters were written, the first of which were taken.
structure Holds (source : Source) (written taken : List Char) : Prop where
  isStream : ∃ seen pending, source = stream seen pending
  conserved : taken ++ source.ahead ++ source.toCome = written

namespace Holds

variable {source : Source} {written taken : List Char}

theorem serve (h : source.Holds written taken) (request : Request) :
    (source.serve request).2.Holds (written ++ request.added)
      (taken ++ (source.serve request).1.flatMap Answer.chars) := by
  obtain ⟨⟨seen, pending, rfl⟩, rfl⟩ := h
  refine ⟨by cases request <;> cases seen <;> exact ⟨_, _, rfl⟩, ?_⟩
  cases request with
  | append added => cases seen <;> simp [Source.serve, append, ahead, toCome, Request.added]
  | peek =>
    cases seen <;> cases pending <;>
      simp [Source.serve, peek, ahead, toCome, Answer.chars, Request.added]
  | read =>
    cases seen <;> cases pending <;>
      simp [Source.serve, Source.read, ahead, toCome, Answer.chars, Request.added]

theorem serveAll (h : source.Holds written taken) (requests : List Request) :
    (source.serveAll requests).2.Holds (written ++ requests.flatMap Request.added)
      (taken ++ (source.serveAll requests).1.flatMap Answer.chars) := by
  induction requests generalizing source written taken with
  | nil => simpa [Source.serveAll] using h
  | cons request rest ih =>
    have hrest := ih (h.serve request)
    simpa only [Source.serveAll, List.flatMap_cons, List.flatMap_append, List.append_assoc]
      using hrest

end Holds

theorem holds_ofStream (initial : String) : (ofStream initial).Holds initial.toList [] :=
  ⟨⟨_, _, rfl⟩, rfl⟩

variable {source : Source} {next : Option Char}

-- That the next character of a source was looked at already.
def Peeked (source : Source) (next : Option Char) : Prop := source.peek = (next, source)

theorem peeked_peek (source : Source) : source.peek.2.Peeked source.peek.1 := by
  rcases source with _ | ⟨_ | _, _⟩ <;> rfl

theorem Peeked.append (h : source.Peeked next) (added : List Char) :
    (source.append added).Peeked next := by
  rcases source with _ | ⟨_ | _, _⟩ <;> simp_all [Peeked, peek, Source.append]

-- A character that was looked at stays the next one until it is read, even if it is none and the
-- stream grows.
theorem Peeked.serveAll (h : source.Peeked next) {waiting : List Request}
    (hwaiting : ∀ request ∈ waiting, request.isRead = false) :
    (∀ answer ∈ (source.serveAll waiting).1, answer = .seen next) ∧
      (source.serveAll waiting).2.Peeked next := by
  induction waiting generalizing source with
  | nil => exact ⟨nofun, h⟩
  | cons request rest ih =>
    obtain ⟨hrequest, hrest⟩ := List.forall_mem_cons.mp hwaiting
    cases request with
    | peek =>
      have hpeek : source.peek = (next, source) := h
      obtain ⟨hanswers, hpeeked⟩ := ih h hrest
      simp only [Source.serveAll, serve, hpeek]
      exact ⟨List.forall_mem_cons.mpr ⟨rfl, hanswers⟩, hpeeked⟩
    | append added => exact ih (h.append added) hrest
    | read => cases hrequest

theorem Peeked.read_fst (h : source.Peeked next) : source.read.1 = next := by
  rw [Source.read_fst, ← peek_fst, h]

theorem serveAll_read (source : Source) :
    (source.serveAll (List.replicate (source.visible.length + 1) .read)).1 =
      source.visible.map (fun c => .taken (some c)) ++ [.taken none] := by
  generalize hvisible : source.visible = chars
  induction chars generalizing source with
  | nil =>
    have hread : source.read.1 = none := by rw [read_fst, hvisible]; rfl
    simp [serveAll, serve, hread]
  | cons c rest ih =>
    have hpeek : source.peek.1 = some c := by rw [peek_fst, hvisible]; rfl
    have hread : source.read.1 = some c := by rw [read_fst, ← peek_fst, hpeek]
    have hsplit := visible_read_of_peek hpeek
    rw [hvisible] at hsplit
    have hothers := ih _ (List.cons.inj hsplit).2.symm
    rw [List.length_cons, List.replicate_succ]
    simp only [serveAll, serve, hread, hothers, List.map_cons, List.cons_append, List.nil_append]

theorem serveAll_append {waiting : List Request}
    (hwaiting : ∀ request ∈ waiting, request.isAppend = true) (source : Source) :
    source.serveAll waiting = ([], source.append (waiting.flatMap Request.added)) := by
  induction waiting generalizing source with
  | nil => rw [serveAll, List.flatMap_nil, append_nil]
  | cons request rest ih =>
    obtain ⟨hrequest, hrest⟩ := List.forall_mem_cons.mp hwaiting
    cases request with
    | append added =>
      simp only [serveAll, serve, ih hrest, List.flatMap_cons, append_append, List.nil_append,
        Request.added]
    | peek => cases hrequest
    | read => cases hrequest

-- Behind a read nothing is kept. All that was written and not yet read is then delivered, text
-- that comes before the next look included.
theorem Holds.delivered {written taken : List Char} (h : source.Holds written taken)
    {waiting : List Request} (hwaiting : ∀ request ∈ waiting, request.isAppend = true) :
    ∃ rest, taken ++ source.read.1.toList ++ rest = written ++ waiting.flatMap Request.added ∧
      ((source.read.2.serveAll waiting).2.serveAll (List.replicate (rest.length + 1) .read)).1 =
        rest.map (fun c => .taken (some c)) ++ [.taken none] := by
  have hread := (h.serve .read).serveAll waiting
  obtain ⟨pending, hpending⟩ : ∃ pending, source.read.2 = stream none pending := by
    obtain ⟨⟨seen, pending, rfl⟩, _⟩ := h
    cases seen <;> exact ⟨_, rfl⟩
  rw [serveAll_append hwaiting] at hread ⊢
  simp only [Source.serve, hpending, append] at hread ⊢
  refine ⟨pending ++ waiting.flatMap Request.added, ?_, ?_⟩
  · have hconserved := hread.conserved
    simpa [ahead, toCome, Answer.chars, Request.added] using hconserved
  · exact serveAll_read (stream none (pending ++ waiting.flatMap Request.added))

-- That nothing was written behind an end that was seen.
def Quiet : Source → Prop
  | stream (some none) pending => pending = []
  | stream (some (some _)) _ | stream none _ | text _ => True

theorem Quiet.serve (h : source.Quiet) {request : Request} (hrequest : request.isAppend = false) :
    source.fixed.serve request = ((source.serve request).1, (source.serve request).2.fixed) ∧
      (source.serve request).2.Quiet := by
  cases request with
  | append added => cases hrequest
  | peek =>
    refine ⟨by simp only [Source.serve, peek_fixed], ?_⟩
    rcases source with _ | ⟨_ | _ | _, _ | _⟩ <;> simp_all [Source.serve, peek, Quiet]
  | read =>
    rcases source with _ | ⟨_ | _ | _, _ | _⟩ <;>
      simp_all [Source.serve, read, fixed, visible, Quiet]

theorem Quiet.serveAll (h : source.Quiet) {requests : List Request}
    (hrequests : ∀ request ∈ requests, request.isAppend = false) :
    (source.fixed.serveAll requests).1 = (source.serveAll requests).1 := by
  induction requests generalizing source with
  | nil => rfl
  | cons request rest ih =>
    obtain ⟨hrequest, hrest⟩ := List.forall_mem_cons.mp hrequests
    obtain ⟨hserve, hquiet⟩ := h.serve hrequest
    simp only [Source.serveAll, hserve, ih hquiet hrest]

-- Whatever is asked of a stream while it grows, what was read and what was looked at are together
-- the text that it has given, and the text behind that is still to come; what was looked at is
-- read next; all that is written before the look that follows a read is delivered; and without
-- growth the answers are those of a fixed text.
theorem streams_keep_their_characters (initial : String) (requests : List Request) :
    let served := (ofStream initial).serveAll requests
    let source := served.2
    let written := initial.toList ++ requests.flatMap Request.added
    let taken := served.1.flatMap Answer.chars
    (∃ given, taken ++ source.ahead = given ∧ given ++ source.toCome = written) ∧
    (∀ waiting : List Request, (∀ request ∈ waiting, request.isRead = false) →
      let later := source.serveAll (.peek :: waiting)
      (∀ answer ∈ later.1, answer = .seen source.peek.1) ∧ later.2.read.1 = source.peek.1) ∧
    (∀ waiting : List Request, (∀ request ∈ waiting, request.isAppend = true) →
      ∃ rest, taken ++ source.read.1.toList ++ rest = written ++ waiting.flatMap Request.added ∧
        ((source.read.2.serveAll waiting).2.serveAll (List.replicate (rest.length + 1) .read)).1 =
          rest.map (fun c => .taken (some c)) ++ [.taken none]) ∧
    ((∀ request ∈ requests, request.isAppend = false) →
      served.1 = ((ofString initial).serveAll requests).1) := by
  intro served source written taken
  have hholds : source.Holds written taken := (holds_ofStream initial).serveAll requests
  refine ⟨⟨_, rfl, hholds.conserved⟩, fun waiting hwaiting => ?_, fun waiting hwaiting =>
    hholds.delivered hwaiting, fun hrequests => ?_⟩
  · obtain ⟨hanswers, hpeeked⟩ := (peeked_peek source).serveAll hwaiting
    exact ⟨List.forall_mem_cons.mpr ⟨rfl, hanswers⟩, hpeeked.read_fst⟩
  · have hquiet : (ofStream initial).Quiet := trivial
    exact (hquiet.serveAll hrequests).symm

-- The end of `a` that was looked at is read before the `b` that came meanwhile, which comes next.
theorem late_text_is_delivered :
    let source := ((ofStream "a").serveAll [.read, .peek, .append ['b']]).2
    (source.serveAll [.peek, .append ['c']]).2.read.1 = none ∧
      ((source.read.2.serveAll [.append ['c']]).2.serveAll [.read, .read, .read]).1 =
        [.taken (some 'b'), .taken (some 'c'), .taken none] := by
  intro source
  obtain ⟨_, hpeeked, hdelivered, _⟩ :=
    streams_keep_their_characters "a" [.read, .peek, .append ['b']]
  refine ⟨(hpeeked [.append ['c']] (by simp [Request.isRead])).2, ?_⟩
  obtain ⟨rest, hrest, hanswers⟩ := hdelivered [.append ['c']] (by simp [Request.isAppend])
  have hread : 'a' :: rest = ['a', 'b', 'c'] := hrest
  obtain rfl := (List.cons.inj hread).2
  exact hanswers

end Calculator.Source
