import PointerLab.McpHttp

set_option autoImplicit false

/- Whether the way a request arrives matters. The header limit is on what has been received
without a terminator, so a header block just over it depends on where the chunks end. -/
namespace PointerLab.McpHttp

open ByteText GrowingReads

@[simp] theorem terminator_length : terminator.length = 4 := rfl

theorem decided_of_unfinished {buffer : Bytes} (none_ : search terminator buffer = none) :
    decided buffer =
      if headerLimit < buffer.length then
        some (.malformed 431 "The request headers are too large.")
      else none := by
  unfold decided parseHttpRequest
  rw [none_]
  by_cases long : headerLimit < buffer.length
  · simp only [long, if_true, HttpParse.settled]
  · simp only [long, if_false, HttpParse.settled]

theorem decided_short {buffer : Bytes} (none_ : search terminator buffer = none)
    (short : buffer.length ≤ headerLimit) : decided buffer = none := by
  rw [decided_of_unfinished none_, if_neg (Nat.not_lt.mpr short)]

theorem decided_long {buffer : Bytes} (none_ : search terminator buffer = none)
    (long : headerLimit < buffer.length) :
    decided buffer = some (.malformed 431 "The request headers are too large.") := by
  rw [decided_of_unfinished none_, if_pos long]

/-- Once the terminator has arrived, what follows the request is not looked at. -/
theorem decided_append {buffer : Bytes} {headerEnd : Nat} {parse : HttpParse}
    (found : search terminator buffer = some headerEnd) (more : Bytes)
    (decides : decided buffer = some parse) : decided (buffer ++ more) = some parse := by
  have within := search_within found
  have later := search_append found more
  have head : (buffer ++ more).take headerEnd = buffer.take headerEnd :=
    List.take_append_of_le_length (by omega)
  revert decides
  unfold decided parseHttpRequest
  simp only [found, later, head]
  cases parseHead (buffer.take headerEnd) with
  | error failure => exact id
  | ok parsed =>
      by_cases short : buffer.length < headerEnd + 4 + parsed.2
      · intro decides
        simp [short, HttpParse.settled] at decides
      · have long : ¬ (buffer ++ more).length < headerEnd + 4 + parsed.2 := by
          rw [List.length_append]
          omega
        have body : ((buffer ++ more).drop (headerEnd + 4)).take parsed.2 =
            (buffer.drop (headerEnd + 4)).take parsed.2 := by
          rw [terminator_length] at within
          rw [List.drop_append_of_le_length within]
          apply List.take_append_of_le_length
          rw [List.length_drop]
          omega
        simp only [short, long, if_false, body]
        exact id

/-- Nothing but the limit on the header block refuses with its status. -/
def Spares {Value : Type} (result : Except (Nat × String) Value) : Prop :=
  ∀ failure, result = .error failure → failure.1 ≠ 431

theorem spares_ok {Value : Type} (value : Value) : Spares (.ok value) := by
  intro failure fails
  contradiction

theorem spares_error {Value : Type} {status : Nat} (other : status ≠ 431) (error : String) :
    Spares (.error (status, error) : Except (Nat × String) Value) := by
  intro failure fails
  cases fails
  exact other

theorem spares_bind {Value Answer : Type} {first : Except (Nat × String) Value}
    {rest : Value → Except (Nat × String) Answer} (before : Spares first)
    (after : ∀ value, Spares (rest value)) : Spares (first >>= rest) := by
  cases first with
  | error failure =>
      intro other fails
      have same : failure = other := Except.error.inj fails
      exact before other (by rw [same])
  | ok value => exact after value

theorem spares_requestLine (line : Bytes) : Spares (parseRequestLine line) := by
  unfold parseRequestLine
  split
  · exact spares_error (by decide) _
  · exact spares_ok _

theorem spares_headerLine (request : HttpRequest) (line : Bytes) :
    Spares (parseHeaderLine request line) := by
  unfold parseHeaderLine
  split
  · exact spares_ok _
  · split
    · exact spares_error (by decide) _
    · exact spares_ok _

theorem spares_headerLines (lines : List Bytes) (request : HttpRequest) :
    Spares (lines.foldlM parseHeaderLine request) := by
  induction lines generalizing request with
  | nil => exact spares_ok request
  | cons line rest ih =>
      rw [List.foldlM_cons]
      exact spares_bind (spares_headerLine request line) ih

theorem spares_lines (lines : List Bytes) : Spares (parseLines lines) := by
  cases lines with
  | nil => exact spares_ok _
  | cons first rest =>
      exact spares_bind (spares_requestLine first) fun request => spares_headerLines rest request

theorem spares_contentLength (request : HttpRequest) : Spares (contentLength request) := by
  simp only [contentLength]
  split
  · exact spares_ok _
  · split
    · exact spares_error (by decide) _
    · split
      · exact spares_error (by decide) _
      · exact spares_ok _

theorem spares_head (head : Bytes) : Spares (parseHead head) := by
  refine spares_bind (spares_lines _) fun request => ?_
  refine spares_bind (spares_contentLength request) fun length => ?_
  split
  · exact spares_error (by decide) _
  · split
    · exact spares_error (by decide) _
    · exact spares_ok _

/-- A header block that has arrived whole is not refused for its length. -/
theorem decided_spares {buffer : Bytes} {headerEnd : Nat}
    (found : search terminator buffer = some headerEnd) (error : String) :
    decided buffer ≠ some (.malformed 431 error) := by
  unfold decided parseHttpRequest
  simp only [found]
  cases parsed : parseHead (buffer.take headerEnd) with
  | error failure =>
      intro refused
      simp only [HttpParse.settled, Option.some.injEq, HttpParse.malformed.injEq] at refused
      exact spares_head _ failure parsed refused.1
  | ok parts =>
      by_cases short : buffer.length < headerEnd + 4 + parts.2
      · simp [short, HttpParse.settled]
      · simp [short, HttpParse.settled]

/-- Up to this place of the terminator no cut is refused for its header block. -/
def safeHeaderEnd : Nat := headerLimit - 3

/-- From this place of the terminator on, every cut is refused. -/
def refusedHeaderEnd : Nat := headerLimit + chunkSize - 3

theorem stable_of_safe {stream : Bytes}
    (safe : ∀ headerEnd, search terminator stream = some headerEnd → headerEnd ≤ safeHeaderEnd) :
    Stable decided stream := by
  intro part shorter parse decides
  obtain ⟨more, rfl⟩ := shorter
  cases found : search terminator part with
  | some headerEnd => exact decided_append found more decides
  | none =>
      cases later : search terminator (part ++ more) with
      | none =>
          rw [decided_of_unfinished found] at decides
          split at decides
          · rename_i long
            rw [decided_long later (by rw [List.length_append]; omega)]
            exact decides
          · contradiction
      | some headerEnd =>
          have place := safe headerEnd later
          have unfinished : part.length < headerEnd + terminator.length := by
            by_contra within
            rw [search_of_append later (Nat.not_lt.mp within)] at found
            contradiction
          have short : part.length ≤ headerLimit := by
            rw [terminator_length] at unfinished
            unfold safeHeaderEnd headerLimit at place
            unfold headerLimit
            omega
          rw [decided_short found short] at decides
          contradiction

/-- With chunks too short to jump from the limit past the terminator, the header block is
refused. -/
theorem readLoop_refused {limit headerEnd : Nat} {stream buffer : Bytes} {chunks : List Bytes}
    (found : search terminator stream = some headerEnd)
    (far : headerLimit + limit ≤ headerEnd + 3) (short : buffer.length ≤ headerLimit)
    (arrives : buffer ++ chunks.flatten = stream)
    (bounded : ∀ chunk ∈ chunks, chunk.length ≤ limit) :
    readLoop decided buffer chunks =
      some (.malformed 431 "The request headers are too large.") := by
  induction chunks generalizing buffer with
  | nil =>
      rw [List.flatten_nil, List.append_nil] at arrives
      have within := search_within found
      rw [← arrives, terminator_length] at within
      omega
  | cons chunk rest ih =>
      have small := bounded chunk List.mem_cons_self
      have length : (buffer ++ chunk).length = buffer.length + chunk.length :=
        List.length_append
      have whole : (buffer ++ chunk) ++ rest.flatten = stream := by
        rw [List.append_assoc]
        exact arrives
      have unfinished : search terminator buffer = none :=
        search_none_of_lt found ⟨_, arrives⟩ (by rw [terminator_length]; omega)
      have stillUnfinished : search terminator (buffer ++ chunk) = none :=
        search_none_of_lt found ⟨_, whole⟩ (by rw [terminator_length]; omega)
      rw [readLoop, decided_short unfinished short]
      by_cases long : headerLimit < (buffer ++ chunk).length
      · have refused := decided_long stillUnfinished long
        cases rest with
        | nil => exact refused
        | cons next rest => simp only [readLoop, refused]
      · exact ih (Nat.not_lt.mp long) whole fun other later =>
          bounded other (List.mem_cons_of_mem _ later)

/-- Once the terminator has arrived, the header block is not refused any more. -/
theorem readLoop_spares {headerEnd : Nat} {buffer : Bytes} {chunks : List Bytes}
    (found : search terminator buffer = some headerEnd) (error : String) :
    readLoop decided buffer chunks ≠ some (.malformed 431 error) := by
  induction chunks generalizing buffer with
  | nil => exact decided_spares found error
  | cons chunk rest ih =>
      unfold readLoop
      split
      · rename_i parse decides
        intro refused
        exact decided_spares found error (decides.trans refused)
      · exact ih (search_append found chunk)

/-- All up to the limit symbol by symbol, then one chunk that brings the terminator. -/
def jumpingCut (headerEnd : Nat) (stream : Bytes) : List Bytes :=
  (stream.take headerLimit).map (fun byte => [byte]) ++
    ([(stream.drop headerLimit).take (headerEnd + 4 - headerLimit)] ++
      (stream.drop (headerEnd + 4)).map fun byte => [byte])

theorem headerLimit_eq : headerLimit = 65536 := rfl

/-- The jump goes from the limit to the end of the terminator. -/
theorem jump_take {headerEnd : Nat} (late : safeHeaderEnd < headerEnd) (stream : Bytes) :
    stream.take headerLimit ++ (stream.drop headerLimit).take (headerEnd + 4 - headerLimit) =
      stream.take (headerEnd + 4) := by
  have sum : headerLimit + (headerEnd + 4 - headerLimit) = headerEnd + 4 := by
    rw [safeHeaderEnd, headerLimit_eq] at late
    rw [headerLimit_eq]
    omega
  rw [← List.take_add, sum]

theorem jumpingCut_cut {headerEnd : Nat} {stream : Bytes}
    (found : search terminator stream = some headerEnd)
    (late : safeHeaderEnd < headerEnd) (near : headerEnd < refusedHeaderEnd) :
    Cut chunkSize stream (jumpingCut headerEnd stream) := by
  have within := search_within found
  rw [terminator_length] at within
  have parts : stream.take headerLimit ++
      ((stream.drop headerLimit).take (headerEnd + 4 - headerLimit) ++
        stream.drop (headerEnd + 4)) = stream := by
    rw [← List.append_assoc, jump_take late, List.take_append_drop]
  have jump : ((stream.drop headerLimit).take (headerEnd + 4 - headerLimit)).length =
      headerEnd + 4 - headerLimit := by
    rw [List.length_take, List.length_drop]
    omega
  rw [safeHeaderEnd, headerLimit_eq] at late
  rw [refusedHeaderEnd, headerLimit_eq, chunkSize] at near
  have nonempty : (stream.drop headerLimit).take (headerEnd + 4 - headerLimit) ≠ [] := by
    intro empty
    rw [empty, List.length_nil, headerLimit_eq] at jump
    omega
  have bounded : ((stream.drop headerLimit).take (headerEnd + 4 - headerLimit)).length ≤
      chunkSize := by
    rw [jump, headerLimit_eq, chunkSize]
    omega
  have cut := (cut_singles chunkSize (by decide) (stream.take headerLimit)).append
    ((cut_single nonempty bounded).append
      (cut_singles chunkSize (by decide) (stream.drop (headerEnd + 4))))
  rw [parts] at cut
  exact cut

theorem jumpingCut_spared {headerEnd : Nat} {stream : Bytes}
    (found : search terminator stream = some headerEnd) (late : safeHeaderEnd < headerEnd)
    (error : String) :
    readRequest (jumpingCut headerEnd stream) ≠ some (.malformed 431 error) := by
  have within := search_within found
  rw [terminator_length] at within
  have singles := (cut_singles 1 (le_refl 1) (stream.take headerLimit)).whole
  have short : (stream.take headerLimit).length ≤ headerLimit := by
    rw [List.length_take]
    exact Nat.min_le_left _ _
  have undecided : ∀ part, part <+: stream.take headerLimit → decided part = none := by
    intro part shorter
    have small : part.length ≤ headerLimit := le_trans shorter.length_le short
    refine decided_short (search_none_of_lt found (shorter.trans (List.take_prefix _ _)) ?_)
      small
    rw [safeHeaderEnd] at late
    rw [headerLimit_eq] at late small
    rw [terminator_length]
    omega
  have arrived : search terminator (stream.take (headerEnd + 4)) = some headerEnd := by
    have whole : search terminator (stream.take (headerEnd + 4) ++ stream.drop (headerEnd + 4)) =
        some headerEnd := by
      rw [List.take_append_drop]
      exact found
    refine search_of_append whole ?_
    rw [List.length_take, terminator_length]
    omega
  unfold readRequest jumpingCut
  rw [readLoop_append _ (by rw [List.nil_append, singles]; exact undecided),
    List.nil_append, singles, List.cons_append, List.nil_append, readLoop,
    undecided _ List.prefix_rfl]
  simp only [jump_take late]
  exact readLoop_spares arrived error

/-- Symbol by symbol the header block is refused, in one jump it is not. -/
theorem verdicts_differ {headerEnd : Nat} {stream : Bytes}
    (found : search terminator stream = some headerEnd) (late : safeHeaderEnd < headerEnd) :
    (readRequest (stream.map fun byte => [byte])).bind HttpParse.verdict ≠
      (readRequest (jumpingCut headerEnd stream)).bind HttpParse.verdict := by
  have far : headerLimit + 1 ≤ headerEnd + 3 := by
    rw [safeHeaderEnd, headerLimit_eq] at late
    rw [headerLimit_eq]
    omega
  have singles := cut_singles 1 (le_refl 1) stream
  have refused : readRequest (stream.map fun byte => [byte]) =
      some (.malformed 431 "The request headers are too large.") :=
    readLoop_refused found far (Nat.zero_le _) singles.whole singles.bounded
  have spared := jumpingCut_spared found late
  intro equal
  rw [refused] at equal
  cases reads : readRequest (jumpingCut headerEnd stream) with
  | none =>
      rw [reads] at equal
      contradiction
  | some parse =>
      rw [reads] at equal
      cases parse with
      | incomplete => simp [HttpParse.verdict] at equal
      | complete request consumed => simp [HttpParse.verdict] at equal
      | malformed status error =>
          simp only [Option.bind_some, HttpParse.verdict, Option.some.injEq,
            Verdict.malformed.injEq] at equal
          exact spared error (equal ▸ reads)

/-- A terminator that is early enough, or too late for any jump, leaves nothing to the cut. -/
theorem reads_alike {stream : Bytes} {chunks others : List Bytes}
    (outside : ∀ headerEnd, search terminator stream = some headerEnd →
      headerEnd ≤ safeHeaderEnd ∨ refusedHeaderEnd ≤ headerEnd)
    (cut : Cut chunkSize stream chunks) (otherCut : Cut chunkSize stream others) :
    readRequest chunks = readRequest others := by
  by_cases safe : ∀ headerEnd, search terminator stream = some headerEnd →
      headerEnd ≤ safeHeaderEnd
  · have stable := stable_of_safe safe
    exact (readLoop_of_stable stable cut.whole).trans
      (readLoop_of_stable stable otherCut.whole).symm
  · obtain ⟨headerEnd, notSafe⟩ := not_forall.mp safe
    obtain ⟨found, late⟩ := Classical.not_imp.mp notSafe
    have jumps : headerLimit + chunkSize ≤ headerEnd + 3 := by
      have far := (outside headerEnd found).resolve_left late
      rw [refusedHeaderEnd] at far
      omega
    exact (readLoop_refused found jumps (Nat.zero_le _) cut.whole cut.bounded).trans
      (readLoop_refused found jumps (Nat.zero_le _) otherCut.whole otherCut.bounded).symm

/-- Every cut of a stream reaches the same verdict, unless its header block ends just over
the limit, within the length of a chunk. -/
theorem verdict_of_every_cut_iff (stream : Bytes) :
    (∀ chunks others, Cut chunkSize stream chunks → Cut chunkSize stream others →
      (readRequest chunks).bind HttpParse.verdict = (readRequest others).bind HttpParse.verdict) ↔
    ∀ headerEnd, search terminator stream = some headerEnd →
      headerEnd ≤ safeHeaderEnd ∨ refusedHeaderEnd ≤ headerEnd := by
  constructor
  · intro same headerEnd found
    by_contra within
    obtain ⟨late, near⟩ := not_or.mp within
    have singles := cut_singles chunkSize (by decide) stream
    have jumps := jumpingCut_cut found (Nat.not_le.mp late) (Nat.not_le.mp near)
    exact verdicts_differ found (Nat.not_le.mp late) (same _ _ singles jumps)
  · intro outside chunks others cut otherCut
    rw [reads_alike outside cut otherCut]

/-- A request with one header just over the limit. -/
def longHeader : Bytes :=
  ascii "POST / HTTP/1.1\r\nX:" ++ (List.replicate 65530 97 ++ terminator)

theorem search_afterRequestLine {rest : Bytes} {place : Nat}
    (found : search terminator rest = some place) :
    search terminator (ascii "POST / HTTP/1.1\r\nX:" ++ rest) = some (place + 19) := by
  have start : ascii "POST / HTTP/1.1\r\nX:" =
      [80, 79, 83, 84, 32, 47, 32, 72, 84, 84, 80, 47, 49, 46, 49, 13, 10, 88, 58] := by
    decide
  rw [start]
  simp only [terminator] at found ⊢
  simp [search, found]

theorem longHeader_end : search terminator longHeader = some 65549 := by
  refine @search_afterRequestLine _ 65530 ?_
  rw [terminator, search_replicate (by decide)]
  decide

theorem longHeader_verdicts_differ :
    ¬ ∀ chunks others, Cut chunkSize longHeader chunks → Cut chunkSize longHeader others →
      (readRequest chunks).bind HttpParse.verdict =
        (readRequest others).bind HttpParse.verdict := by
  intro same
  exact verdicts_differ longHeader_end (by decide)
    (same _ _ (cut_singles chunkSize (by decide) longHeader)
      (jumpingCut_cut longHeader_end (by decide) (by decide)))

end PointerLab.McpHttp
