import ShardStore.Wire.Decoder

/-!
The wire format read from one end to the other, when all bytes are there: a message is a line, a line
and a body, or a line and as many elements as it says. A fault takes the place of the message it is
in, and the next one begins behind the line or body that was wrong. A message that is not complete
when the bytes end is not read.
-/

namespace ShardStore.Wire

open ShardStore.Text

/-- Reads on behind a part that was read without a fault. -/
def andThen? {α β : Type} (read : Option (Except Fault α × Bytes))
    (next : α → Bytes → Option (Except Fault β × Bytes)) : Option (Except Fault β × Bytes) :=
  match read with
  | none => none
  | some (.error fault, rest) => some (.error fault, rest)
  | some (.ok part, rest) => next part rest

/-- Reads an element of an array: a length and a body, a negative length alone, or any other line,
which is the element itself. -/
def readElement? (bytes : Bytes) : Option (Except Fault Bytes × Bytes) :=
  andThen? (takeLine? bytes) fun line rest =>
    match line with
    | 0x24 :: _ =>
      andThen? (some (number line, rest)) fun length rest =>
        if length < 0 then some (.ok [], rest) else takeBody? length.toInt.toNat rest
    | _ => some (.ok line, rest)

def readElements? : Nat → Bytes → Option (Except Fault (List Bytes) × Bytes)
  | 0, bytes => some (.ok [], bytes)
  | count + 1, bytes =>
    andThen? (readElement? bytes) fun element rest =>
      andThen? (readElements? count rest) fun elements rest =>
        some (.ok (element :: elements), rest)

def status (content : Bytes) : Message :=
  if content = [0x4F, 0x4B] then .ok
  else if content = [0x50, 0x4F, 0x4E, 0x47] then .pong
  else .simple (lossy content)

/-- Reads what follows the header of an array or a bulk string that says a count. Minus one stands
for null, and no other negative count is allowed. -/
def readCounted? (header : Bytes) (absent : Message)
    (read : Nat → Bytes → Option (Except Fault Message × Bytes)) (rest : Bytes) :
    Option (Except Fault Message × Bytes) :=
  andThen? (some (number header, rest)) fun count rest =>
    if count = -1 then some (.ok absent, rest)
    else if count < 0 then some (.error (.invalidHeader (lossy header)), rest)
    else read count.toInt.toNat rest

def readItem? (bytes : Bytes) : Option (Item × Bytes) :=
  andThen? (takeLine? bytes) fun line rest =>
    match line with
    | 0x2A :: _ =>
      readCounted? line .nullArray (fun count rest =>
        andThen? (readElements? count rest) fun elements rest =>
          some (.ok (.ofList elements), rest)) rest
    | 0x24 :: _ =>
      readCounted? line .null (fun length rest =>
        andThen? (takeBody? length rest) fun body rest => some (.ok (.bulk body), rest)) rest
    | 0x2B :: content => some (.ok (status content), rest)
    | 0x2D :: text => some (.ok (.error (lossy text)), rest)
    | 0x3A :: _ => andThen? (some (number line, rest)) fun n rest => some (.ok (.integer n), rest)
    | _ => some (.error (.unknownPrefix (lossy line)), rest)

theorem andThen?_length {α β : Type} {read : Option (Except Fault α × Bytes)} {rest : Bytes}
    {next : α → Bytes → Option (Except Fault β × Bytes)} {result : Except Fault β}
    (more : ∀ part middle last, next part middle = some (last, rest) →
      rest.length ≤ middle.length)
    (done : andThen? read next = some (result, rest)) :
    ∃ first middle, read = some (first, middle) ∧ rest.length ≤ middle.length := by
  unfold andThen? at done
  split at done
  · cases done
  · cases done; exact ⟨_, _, rfl, Nat.le_refl _⟩
  · exact ⟨_, _, rfl, more _ _ _ done⟩

theorem readElement?_length {bytes rest : Bytes} {result : Except Fault Bytes}
    (read : readElement? bytes = some (result, rest)) : rest.length < bytes.length := by
  obtain ⟨_, middle, taken, shorter⟩ := andThen?_length (fun line middle last read => by
    split at read
    · obtain ⟨_, _, same, shorter⟩ := andThen?_length (fun length middle last read => by
        split at read
        · cases read; exact Nat.le_refl _
        · exact Nat.le_of_lt (takeBody?_length read)) read
      cases same; exact shorter
    · cases read; exact Nat.le_refl _) read
  exact Nat.lt_of_le_of_lt shorter (takeLine?_length taken)

theorem readElements?_length {count : Nat} {bytes rest : Bytes}
    {result : Except Fault (List Bytes)} (read : readElements? count bytes = some (result, rest)) :
    rest.length ≤ bytes.length := by
  induction count generalizing bytes rest result with
  | zero => cases read; exact Nat.le_refl _
  | succ count ih =>
      obtain ⟨_, middle, element, shorter⟩ := andThen?_length (fun _ middle last read => by
        obtain ⟨_, _, elements, shorter⟩ := andThen?_length (fun _ _ _ same => by
          cases same; exact Nat.le_refl _) read
        exact Nat.le_trans shorter (ih elements)) read
      exact Nat.le_of_lt (Nat.lt_of_le_of_lt shorter (readElement?_length element))

theorem readCounted?_length {header bytes rest : Bytes} {absent : Message}
    {read : Nat → Bytes → Option (Except Fault Message × Bytes)} {result : Except Fault Message}
    (more : ∀ count middle last, read count middle = some (last, rest) →
      rest.length ≤ middle.length)
    (done : readCounted? header absent read bytes = some (result, rest)) :
    rest.length ≤ bytes.length := by
  obtain ⟨_, _, same, shorter⟩ := andThen?_length (fun count middle last done => by
    split at done
    · cases done; exact Nat.le_refl _
    · split at done
      · cases done; exact Nat.le_refl _
      · exact more _ _ _ done) done
  cases same; exact shorter

theorem readItem?_length {bytes rest : Bytes} {item : Item}
    (read : readItem? bytes = some (item, rest)) : rest.length < bytes.length := by
  obtain ⟨_, middle, taken, shorter⟩ := andThen?_length (fun line middle last read => by
    split at read
    · refine readCounted?_length (fun count middle result read => ?_) read
      obtain ⟨_, _, elements, shorter⟩ := andThen?_length (fun _ _ _ same => by
        cases same; exact Nat.le_refl _) read
      exact Nat.le_trans shorter (readElements?_length elements)
    · refine readCounted?_length (fun count middle result read => ?_) read
      obtain ⟨_, _, body, shorter⟩ := andThen?_length (fun _ _ _ same => by
        cases same; exact Nat.le_refl _) read
      exact Nat.le_of_lt (Nat.lt_of_le_of_lt shorter (takeBody?_length body))
    · cases read; exact Nat.le_refl _
    · cases read; exact Nat.le_refl _
    · obtain ⟨_, _, same, shorter⟩ := andThen?_length (fun _ _ _ same => by
        cases same; exact Nat.le_refl _) read
      cases same; exact shorter
    · cases read; exact Nat.le_refl _) read
  exact Nat.lt_of_le_of_lt shorter (takeLine?_length taken)

def readAll (bytes : Bytes) : List Item :=
  match _read : readItem? bytes with
  | none => []
  | some (item, rest) => item :: readAll rest
termination_by bytes.length
decreasing_by exact readItem?_length _read

end ShardStore.Wire
