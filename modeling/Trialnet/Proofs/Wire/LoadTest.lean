import Trialnet.Proofs.Duration.Seconds
import Trialnet.Proofs.Json.Storable
import Trialnet.Wire.LoadTest

/-!
# Load tests on the wire are read back

A payload has its wire names already, so adapting its spelling changes nothing but the timeout,
which is read as a duration and becomes a number.  Read back, every load test whose timeout is
not negative is what it was.
-/

namespace Trialnet

namespace Spelling

/-- Fields under wire names that are not null stay as they are, if no wire name is the spelling
of another field. -/
theorem adapt_eq_self {shape : Shape} {fields : Fields}
    (hspelling : ∀ s ∈ shape, s.1 ∉ shape.wireNames)
    (hnames : ∀ f ∈ fields, f.1 ∈ shape.wireNames) (hnull : ∀ f ∈ fields, f.2 ≠ .null) :
    adapt shape fields = fields := by
  have hcanonical : canonical shape fields = fields := by
    rw [canonical, List.filter_eq_self]
    intro f hf
    simp [hnames f hf, hnull f hf]
  have hadd : ∀ s ∈ shape, addSpelling fields fields s = fields := by
    intro s hs
    have habsent : fields.lookup s.1 = none := by
      rw [List.lookup_eq_none_iff]
      intro f hf
      have hne : s.1 ≠ f.1 := fun h => hspelling s hs (h ▸ hnames f hf)
      simpa using hne
    simp [addSpelling, present?, habsent]
  rw [adapt, hcanonical]
  clear hcanonical hnames hnull hspelling
  induction shape with
  | nil => rfl
  | cons s shape ih =>
    rw [List.foldl_cons, hadd s (by simp)]
    exact ih fun t ht => hadd t (by simp [ht])

end Spelling

namespace Wire

open Payload Json

/-! ### Entries of the message mix -/

theorem Message.holds_fields (m : Message) :
    Holds 0 m.fields ["type", "weight", "numMsgs", "containedType", "numOfRecipients"] :=
  (holds_entry "type" (storable_text _))
    |>.append (holds_entry "weight" (storable_float _))
    |>.append (holds_entry "numMsgs" (storable_narrow _))
    |>.append (holds_entry "containedType" (storable_text _))
    |>.append (holds_entry "numOfRecipients" (storable_narrow _))

theorem Message.storable (m : Message) : Storable 1 m.payload :=
  m.holds_fields.object (by decide)

theorem Message.ne_null_of_mem_fields {m : Message} {f : String × Datum} (h : f ∈ m.fields) :
    f.2 ≠ .null := by
  simp only [fields, List.mem_append, mem_entry] at h
  rcases h with (((rfl | rfl) | rfl) | rfl) | rfl
  · exact nofun
  · exact nofun
  · exact nofun
  · exact nofun
  · exact nofun

theorem Message.adaptMessage_fields (m : Message) : Spelling.adaptMessage m.fields = m.fields := by
  refine Spelling.adapt_eq_self (by decide) (fun f hf => ?_) fun f hf => ne_null_of_mem_fields hf
  have hsub : ∀ name ∈ ["type", "weight", "numMsgs", "containedType", "numOfRecipients"],
      name ∈ Shape.message.wireNames := by decide
  exact hsub f.1 (m.holds_fields.keys.subset (List.mem_map_of_mem hf))

theorem Message.read_payload (m : Message) : read m.payload = .ok m := by
  have hkind : m.fields.lookup "type" = some (.text m.kind) := by
    simp [fields, List.lookup_append]
  have hweight : m.fields.lookup "weight" = some (.float m.weight) := by
    simp [fields, List.lookup_append]
  have hcount : m.fields.lookup "numMsgs" = some (narrow m.count) := by
    simp [fields, List.lookup_append]
  have hcontained : m.fields.lookup "containedType" = some (.text m.contained) := by
    simp [fields, List.lookup_append]
  have hrecipients : m.fields.lookup "numOfRecipients" = some (narrow m.recipients) := by
    simp [fields, List.lookup_append]
  simp only [read, payload, record, m.adaptMessage_fields, ofFields, defaulted, Field.find?,
    Field.same, hkind, hweight, hcount, hcontained, hrecipients, text_text, float_float,
    signed32_narrow]
  rfl

/-! ### Load tests -/

theorem LoadTest.holds_fields (t : LoadTest) :
    Holds 2 t.fields ["name", "description", "chainId", "numOfTxs", "numOfBlocks", "msgs",
      "unorderedTxs", "txTimeout", "isEvmChain", "gasDenom", "bech32Prefix"] :=
  (holds_entry "name" (storable_text _))
    |>.append (holds_entry "description" (storable_text _))
    |>.append (holds_entry "chainId" (storable_text _))
    |>.append (holds_entry "numOfTxs" (storable_narrow _))
    |>.append (holds_entry "numOfBlocks" (storable_narrow _))
    |>.append (holds_entry "msgs" (storable_map Message.storable _))
    |>.append (holds_entry "unorderedTxs" (storable_bool _))
    |>.append (holds_optionalEntry "txTimeout" t.timeout storable_wide)
    |>.append (holds_entry "isEvmChain" (storable_bool _))
    |>.append (holds_entry "gasDenom" (storable_text _))
    |>.append (holds_entry "bech32Prefix" (storable_text _))

theorem LoadTest.storable (t : LoadTest) : Storable 3 t.payload := t.holds_fields.object (by decide)

theorem LoadTest.ne_null_of_mem_fields {t : LoadTest} {f : String × Datum} (h : f ∈ t.fields) :
    f.2 ≠ .null := by
  simp only [fields, List.mem_append, mem_entry, mem_optionalEntry, Option.map_eq_some_iff] at h
  rcases h with (((((((((rfl | rfl) | rfl) | rfl) | rfl) | rfl) | rfl) | h) | rfl) | rfl) | rfl
  case inl.inl.inl.inr =>
    obtain ⟨d, ⟨n, -, rfl⟩, rfl⟩ := h
    exact nofun
  all_goals exact nofun

theorem LoadTest.adapt_fields (t : LoadTest) :
    Spelling.adapt Shape.loadTest t.fields = t.fields := by
  refine Spelling.adapt_eq_self (by decide) (fun f hf => ?_) fun f hf => ne_null_of_mem_fields hf
  have hsub : ∀ name ∈ ["name", "description", "chainId", "numOfTxs", "numOfBlocks", "msgs",
      "unorderedTxs", "txTimeout", "isEvmChain", "gasDenom", "bech32Prefix"],
      name ∈ Shape.loadTest.wireNames := by decide
  exact hsub f.1 (t.holds_fields.keys.subset (List.mem_map_of_mem hf))

/-- The text of a timeout in seconds is read as a duration of so many seconds. -/
theorem timeoutSeconds_wide {n : Signed64} (h : 0 ≤ n.val) :
    Spelling.timeoutSeconds (wide n) = .ok (some (narrow n)) := by
  obtain ⟨k, hk⟩ := Int.eq_ofNat_of_zero_le h
  have hlength : (Numeral.digits k).length ≤ Numeral.maxDigits := by
    have hbound : n.val.natAbs < 2 ^ 64 := by
      have := n.le_hi
      omega
    have := length_digits_of_natAbs_lt hbound
    rwa [hk] at this
  simp only [wide, Spelling.timeoutSeconds, hk, Duration.read_text hlength, narrow]
  rfl

/-- The text of a timeout becomes a number, and nothing else changes. -/
theorem exists_withSeconds {fields : Fields} {timeout : Option Signed64}
    (hlookup : fields.lookup "txTimeout" = timeout.map wide)
    (h : ∀ n, timeout = some n → 0 ≤ n.val) :
    ∃ adapted, Spelling.withSeconds fields = .ok adapted
      ∧ (∀ key, key ≠ "txTimeout" → adapted.lookup key = fields.lookup key)
      ∧ adapted.lookup "txTimeout" = timeout.map narrow := by
  rw [Spelling.withSeconds, hlookup]
  cases timeout with
  | none => exact ⟨fields, rfl, fun _ _ => rfl, hlookup⟩
  | some n =>
    refine ⟨fields.put "txTimeout" (narrow n), ?_, fun key hkey => ?_, ?_⟩
    · simp only [Option.map_some, timeoutSeconds_wide (h n rfl), bind, Except.bind, pure,
        Except.pure]
    · have hkey' : (key == "txTimeout") = false := by simpa using hkey
      rw [Fields.lookup_put, hkey']
      rfl
    · rw [Fields.lookup_put, beq_self_eq_true]
      rfl

@[simp] theorem signed64_narrow (n : Signed64) : signed64 (narrow n) = .ok n := ranged_int n

theorem LoadTest.lookup_timeout (t : LoadTest) :
    t.fields.lookup "txTimeout" = t.timeout.map wide := by
  simp [fields, List.lookup_append]

/-- A load test is read back, if its timeout is not negative: a duration never is. -/
theorem LoadTest.read_payload {t : LoadTest} (h : ∀ n, t.timeout = some n → 0 ≤ n.val) :
    read t.payload = .ok t := by
  obtain ⟨adapted, hadapt, hsame, htimeout⟩ := exists_withSeconds t.lookup_timeout h
  have hadapt' : Spelling.adaptLoadTest t.fields = .ok adapted := by
    rw [Spelling.adaptLoadTest, t.adapt_fields, hadapt]
  have hname : adapted.lookup "name" = some (.text t.name) := by
    simp [hsame, fields, List.lookup_append]
  have hdescription : adapted.lookup "description" = some (.text t.description) := by
    simp [hsame, fields, List.lookup_append]
  have hchainId : adapted.lookup "chainId" = some (.text t.chainId) := by
    simp [hsame, fields, List.lookup_append]
  have htxs : adapted.lookup "numOfTxs" = some (narrow t.txs) := by
    simp [hsame, fields, List.lookup_append]
  have hblocks : adapted.lookup "numOfBlocks" = some (narrow t.blocks) := by
    simp [hsame, fields, List.lookup_append]
  have hmessages : adapted.lookup "msgs" = some (.array (t.messages.map Message.payload)) := by
    simp [hsame, fields, List.lookup_append]
  have hunordered : adapted.lookup "unorderedTxs" = some (.bool t.unordered) := by
    simp [hsame, fields, List.lookup_append]
  have hevm : adapted.lookup "isEvmChain" = some (.bool t.evm) := by
    simp [hsame, fields, List.lookup_append]
  have hgasDenom : adapted.lookup "gasDenom" = some (.text t.gasDenom) := by
    simp [hsame, fields, List.lookup_append]
  have hprefix : adapted.lookup "bech32Prefix" = some (.text t.bech32Prefix) := by
    simp [hsame, fields, List.lookup_append]
  have hseconds : optional ⟨"txTimeout", "txTimeout"⟩ signed64 adapted = .ok t.timeout :=
    optional_of_lookup htimeout (fun hnone => by rw [htimeout, hnone]; rfl)
      fun n _ => ⟨nofun, signed64_narrow n⟩
  simp only [read, payload, record, hadapt', ofFields, Field.same, hseconds, defaulted,
    Field.find?, hname, hdescription, hchainId, htxs, hblocks, hmessages, hunordered, hevm,
    hgasDenom, hprefix, text_text, signed32_narrow, truth_bool, array_map Message.read_payload]
  rfl

end Wire

end Trialnet
