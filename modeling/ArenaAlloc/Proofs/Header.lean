import ArenaAlloc.Header
import ArenaAlloc.Proofs.Extent

/-!
# Headers as values

`Memory.header` reads a whole header at once, and `header_setBlockSize`, `header_setLink`,
`header_setFreed` and `header_writeHeader` say what each store makes of it. Every one of these
stores stays inside one header; `AgreesBut` is that frame, closed under composition, and
`AgreesBut.header_eq` reads a header through it.

## Where the bytes stop mattering

A header is 32 bytes: size and link of eight each, four for the chunk, one with the mark, and
padding behind it. Those offsets occur in this file and, apart from the place of the mark, in no
later one. From here on a header is a value with four fields, a store is an update of one field of
one such value, and the question whether two stores interfere is the question whether two blocks are
`HeaderApart`.

The mark keeps a lemma of its own on every store (`isFreed_write_fields` and its two cases). A
second free reads the mark of a header that a merge has swallowed, which is not an entry of the list
and has no extent to speak of, so for it the frame of the list says nothing.
-/

namespace ArenaAlloc

/-- What a header says. -/
structure Header where
  size : Nat
  link : Nat
  tag : Nat
  freed : Bool
deriving DecidableEq, Repr

def Address.InHeader (x : Address) (b : Block) : Prop := x.InRange (b.headerByte 0) headerSize

instance (x : Address) (b : Block) : Decidable (x.InHeader b) :=
  inferInstanceAs (Decidable (x.InRange _ _))

theorem Address.inHeader_iff {x : Address} {b : Block} :
    x.InHeader b ↔
      x.chunk = b.chunk ∧ b.start ≤ x.offset ∧ x.offset < b.start + headerSize := by
  simp [InHeader, InRange, Block.headerByte]

theorem Address.inHeader_headerByte (b : Block) {i : Nat} (h : i < headerSize) :
    (b.headerByte i).InHeader b :=
  inHeader_iff.2 ⟨rfl, Nat.le_add_right _ _, Nat.add_lt_add_left h _⟩

/-- Headers that are apart share no byte. -/
theorem Block.HeaderApart.not_inHeader {b c : Block} (h : b.HeaderApart c) {x : Address}
    (hx : x.InHeader b) : ¬ x.InHeader c := by
  rw [headerApart_iff] at h
  rw [Address.inHeader_iff] at hx ⊢
  omega

theorem Address.InRange.mono {x p : Address} {n k : Nat} (h : x.InRange p n) (hn : n ≤ k) :
    x.InRange p k :=
  ⟨h.1, h.2.1, Nat.lt_of_lt_of_le h.2.2 (Nat.add_le_add_left hn _)⟩

/-- A block's payload lies behind its header. -/
theorem Address.InRange.not_inHeader {x : Address} {b : Block} {n : Nat}
    (h : x.InRange b.payload n) : ¬ x.InHeader b := by
  simp only [InHeader, InRange, Block.payload, Block.headerByte] at *
  omega

namespace Memory

variable {m m' m'' : Memory} {b c : Block} {bs cs : List Block}

/-- The header in front of a block's payload, as its bytes are now. -/
def header (m : Memory) (b : Block) : Header := ⟨m.blockSize b, m.link b, m.tag b, m.isFreed b⟩

@[simp] theorem size_header (m : Memory) (b : Block) : (m.header b).size = m.blockSize b := rfl
@[simp] theorem link_header (m : Memory) (b : Block) : (m.header b).link = m.link b := rfl
@[simp] theorem tag_header (m : Memory) (b : Block) : (m.header b).tag = m.tag b := rfl
@[simp] theorem freed_header (m : Memory) (b : Block) : (m.header b).freed = m.isFreed b := rfl

/-- The block with the size that its header records. -/
def extent (m : Memory) (b : Block) : Extent := ⟨b, m.blockSize b⟩

/-- A header is a function of its own bytes. -/
theorem header_congr (h : ∀ x, x.InHeader b → m'.byte x = m.byte x) :
    m'.header b = m.header b := by
  have hnum : ∀ i k, i + k ≤ headerSize →
      m'.number (b.headerByte i) k = m.number (b.headerByte i) k := by
    intro i k hik
    refine number_congr fun j hj => h _ (Address.inHeader_iff.2 ⟨rfl, ?_, ?_⟩)
    · simp only [Address.plus, Block.headerByte]
      omega
    · simp only [Address.plus, Block.headerByte]
      omega
  have hmark : m'.byte (b.headerByte 20) = m.byte (b.headerByte 20) :=
    h _ (Address.inHeader_headerByte b (by decide))
  simp only [header, blockSize, link, tag, isFreed, hmark, hnum 0 8 (by decide),
    hnum 8 8 (by decide), hnum 16 4 (by decide)]

/-! ## Stores into a header

The four fields do not overlap, so a store into one reads back in that field and leaves the others:
one equation for each store, of the form "the header, with this field". The bounds are those of the
words the fields are kept in. -/

theorem number_write_headerByte {i k j n : Nat} {f : Nat → UInt8}
    (h : i + k ≤ j ∨ j + n ≤ i) :
    (m.write (b.headerByte j) n f).number (b.headerByte i) k = m.number (b.headerByte i) k := by
  refine number_write_of_apart ?_
  simp only [Address.Apart, Block.headerByte]
  omega

theorem isFreed_write {a : Address} {n : Nat} {f : Nat → UInt8}
    (h : ¬ (b.headerByte 20).InRange a n) : (m.write a n f).isFreed b = m.isFreed b := by
  rw [isFreed, isFreed, byte_write_of_not_inRange h]

theorem isFreed_write_headerByte {j n : Nat} {f : Nat → UInt8} (h : 20 < j ∨ j + n ≤ 20) :
    (m.write (b.headerByte j) n f).isFreed b = m.isFreed b := by
  refine isFreed_write ?_
  simp only [Address.InRange, Block.headerByte]
  omega

/-- The first three fields of a header hold no mark, neither its own nor another's. -/
theorem isFreed_write_fields (h : b = c ∨ b.HeaderApart c) {j n : Nat} {f : Nat → UInt8}
    (hjn : j + n ≤ 20) : (m.write (c.headerByte j) n f).isFreed b = m.isFreed b := by
  rcases h with rfl | h
  · exact isFreed_write_headerByte (.inr hjn)
  · refine isFreed_write fun hr => ?_
    rw [Block.headerApart_iff] at h
    simp only [Address.InRange, Block.headerByte, headerSize] at h hr
    omega

theorem isFreed_setBlockSize (h : b = c ∨ b.HeaderApart c) (size : Nat) :
    (m.setBlockSize c size).isFreed b = m.isFreed b := isFreed_write_fields h (by decide)

theorem isFreed_setLink (h : b = c ∨ b.HeaderApart c) (n : Nat) :
    (m.setLink c n).isFreed b = m.isFreed b := isFreed_write_fields h (by decide)

theorem header_setBlockSize {size : Nat} (h : size < wordLimit) :
    (m.setBlockSize b size).header b = { m.header b with size } := by
  have hl : (m.setBlockSize b size).link b = m.link b := number_write_headerByte (.inr (by decide))
  have ht : (m.setBlockSize b size).tag b = m.tag b := number_write_headerByte (.inr (by decide))
  have hf : (m.setBlockSize b size).isFreed b = m.isFreed b :=
    isFreed_write_headerByte (.inr (by decide))
  simp only [header, blockSize_setBlockSize h, hl, ht, hf]

theorem header_setLink {n : Nat} (h : n < wordLimit) :
    (m.setLink b n).header b = { m.header b with link := n } := by
  have hs : (m.setLink b n).blockSize b = m.blockSize b :=
    number_write_headerByte (.inl (by decide))
  have ht : (m.setLink b n).tag b = m.tag b := number_write_headerByte (.inr (by decide))
  have hf : (m.setLink b n).isFreed b = m.isFreed b := isFreed_write_headerByte (.inr (by decide))
  simp only [header, link_setLink h, hs, ht, hf]

theorem header_setTag {chunk : Nat} (h : chunk < chunkLimit) :
    (m.setTag b chunk).header b = { m.header b with tag := chunk } := by
  have hs : (m.setTag b chunk).blockSize b = m.blockSize b :=
    number_write_headerByte (.inl (by decide))
  have hl : (m.setTag b chunk).link b = m.link b := number_write_headerByte (.inl (by decide))
  have hf : (m.setTag b chunk).isFreed b = m.isFreed b :=
    isFreed_write_headerByte (.inr (by decide))
  simp only [header, tag_setTag h, hs, hl, hf]

/-- The mark is one bit and needs no bound. -/
theorem header_setFreed (freed : Bool) :
    (m.setFreed b freed).header b = { m.header b with freed } := by
  have hs : (m.setFreed b freed).blockSize b = m.blockSize b :=
    number_write_headerByte (.inl (by decide))
  have hl : (m.setFreed b freed).link b = m.link b := number_write_headerByte (.inl (by decide))
  have ht : (m.setFreed b freed).tag b = m.tag b := number_write_headerByte (.inl (by decide))
  simp only [header, isFreed_setFreed, hs, hl, ht]

/-- A link is eight bytes, whatever they hold. -/
theorem link_lt (m : Memory) (b : Block) : m.link b < wordLimit :=
  Nat.lt_of_lt_of_eq (number_lt m _ 8) (by decide)

theorem header_writeHeader {size : Nat} (h : size < wordLimit) (hc : b.chunk < chunkLimit) :
    (m.writeHeader b size).header b = ⟨size, 0, b.chunk, false⟩ := by
  rw [writeHeader, header_setFreed, header_setTag hc, header_setLink (by decide),
    header_setBlockSize h]

/-! ## What a store leaves alone

`m.AgreesBut m' bs` allows changes inside the headers of `bs` and nowhere else. It is a relation of
bytes and not of headers, because the same frame has to protect payloads: a caller's bytes are
outside every header. Stores compose by `trans` once their block lists are made equal by `mono`. -/

/-- Outside the headers of `bs`, `m'` holds what `m` holds. -/
def AgreesBut (m m' : Memory) (bs : List Block) : Prop :=
  ∀ x : Address, (∀ b ∈ bs, ¬ x.InHeader b) → m'.byte x = m.byte x

namespace AgreesBut

theorem refl (m : Memory) (bs : List Block) : m.AgreesBut m bs := fun _ _ => rfl

theorem trans (h : m.AgreesBut m' bs) (h' : m'.AgreesBut m'' bs) : m.AgreesBut m'' bs :=
  fun x hx => (h' x hx).trans (h x hx)

theorem mono (h : m.AgreesBut m' bs) (hs : ∀ b ∈ bs, b ∈ cs) : m.AgreesBut m' cs :=
  fun x hx => h x fun b hb => hx b (hs b hb)

/-- The frame rule: a header apart from all that may have changed is as it was. -/
theorem header_eq (h : m.AgreesBut m' bs) (hc : ∀ b ∈ bs, c.HeaderApart b) :
    m'.header c = m.header c :=
  header_congr fun x hx => h x fun b hb => (hc b hb).not_inHeader hx

/-- Marks stay where only the headers of marked blocks change. -/
theorem isFreed_of_mem (h : m.AgreesBut m' bs) (hb : ∀ b ∈ bs, m'.isFreed b = true)
    (hc : ∀ c ∈ cs, m.isFreed c = true)
    (ha : ∀ c ∈ cs, ∀ b ∈ bs, c = b ∨ c.HeaderApart b) : ∀ c ∈ cs, m'.isFreed c = true := by
  intro c hmem
  by_cases hcb : c ∈ bs
  · exact hb c hcb
  · have hapart : ∀ b ∈ bs, c.HeaderApart b := fun b hbs =>
      (ha c hmem b hbs).resolve_left fun heq => hcb (heq ▸ hbs)
    rw [← freed_header, h.header_eq hapart]
    exact hc c hmem

theorem write {j n : Nat} {f : Nat → UInt8} (h : j + n ≤ headerSize) (hb : b ∈ bs) :
    m.AgreesBut (m.write (b.headerByte j) n f) bs := by
  intro x hx
  refine byte_write_of_not_inRange fun hr => hx b hb ?_
  simp only [Address.InHeader, Address.InRange, Block.headerByte] at *
  omega

theorem setBlockSize (size : Nat) (hb : b ∈ bs) : m.AgreesBut (m.setBlockSize b size) bs :=
  write (by decide) hb

theorem setLink (n : Nat) (hb : b ∈ bs) : m.AgreesBut (m.setLink b n) bs :=
  write (by decide) hb

theorem setFreed (freed : Bool) (hb : b ∈ bs) : m.AgreesBut (m.setFreed b freed) bs :=
  write (by decide) hb

theorem writeHeader (size : Nat) (hb : b ∈ bs) : m.AgreesBut (m.writeHeader b size) bs :=
  (((setBlockSize size hb).trans (setLink 0 hb)).trans (write (by decide) hb)).trans
    (setFreed false hb)

end AgreesBut

end Memory

end ArenaAlloc
