import PyMesh.Networking.MagicDnsQueries
import PyMesh.Dns.Server

/-! The type and the class of a question, and the records that the two responders answer with. -/
namespace PyMesh

open Bytes Rfc1035 Text Resumption MagicDNSProtocol

/-- The question is for type A or ANY, and for class IN or ANY. -/
def AsksAddress (q : SingleQuery) : Prop :=
  (q.question.qtype = 1 ∨ q.question.qtype = 255) ∧
    (q.question.qclass = 1 ∨ q.question.qclass = 255)

instance (q : SingleQuery) : Decidable (AsksAddress q) := inferInstanceAs (Decidable (_ ∧ _))

/-- A record of type A and class IN is among the answers. -/
def HasAddress (response : List UInt8) : Prop :=
  ∃ r ∈ Rfc1035.answers response, r.type = 1 ∧ r.cls = 1

variable {q : SingleQuery} {domain targetIp : String} {ipStr : Option String}
  {built : Except Exc (List UInt8)}

theorem verdict_buildAResponse (q : SingleQuery) (domain targetIp : String) :
    verdict (DNSQueryParser.buildAResponse q.encode domain targetIp) = outcome (some targetIp) := by
  have hlen := q.le_length
  have hend := DNSQueryParser.parseDomainName_encodeName (q.start ++ pack16 1 ++ q.counts)
    (pack16 q.question.qtype ++ pack16 q.question.qclass ++ q.more) q.question.labels
  rw [← q.encode_name, q.length_header] at hend
  cases hip : IPv4Address.parse targetIp with
  | none =>
    rw [DNSQueryParser.buildAResponse, if_neg (by omega), outcome, hip]
    rfl
  | some ip =>
    have hsection := DNSQueryParser.slice_question q.encode
    rw [hend] at hsection
    have hanswer : DNSQueryParser.answer ip = [0xc0, 0x0c, 0x00, 0x01, 0x00, 0x01] ++
        [0x00, 0x00, 0x00, 0x1e] ++ [0x00, 0x04] ++ DNSQueryParser.packed ip := rfl
    rw [DNSQueryParser.buildAResponse_eq hlen hip, ← hsection]
    refine (verdict_message q 0x81 0x80 1 (DNSQueryParser.answer ip)).trans ?_
    rw [UInt8.toNat_one, hanswer, parseRecords_answer rfl rfl, outcome, hip]
    rfl

/-- A response to a name that is bound to `ipStr` has an address whenever there is one. -/
theorem address_only_if_iff (hv : verdict built = outcome ipStr) :
    (∀ response, built = .ok response → HasAddress response → AsksAddress q) ↔
      AsksAddress q ∨ ipStr.bind IPv4Address.parse = none := by
  by_cases hasks : AsksAddress q
  · exact iff_of_true (fun _ _ _ => hasks) (Or.inl hasks)
  · rw [or_iff_right hasks]
    have hok : ∀ response, built = .ok response →
        outcome ipStr = .ok (rcode response, Rfc1035.answers response) := by
      rintro response rfl
      rw [← hv]
      rfl
    cases hip : ipStr.bind IPv4Address.parse with
    | none =>
      refine iff_of_true ?_ rfl
      rintro response hr ⟨r, hmem, -⟩
      have hres := hok response hr
      cases ipStr with
      | none =>
        have hnil := (Prod.mk.inj (Except.ok.inj hres)).2
        rw [← hnil] at hmem
        cases hmem
      | some t =>
        rw [Option.bind_some] at hip
        rw [outcome, hip] at hres
        cases hres
    | some ip =>
      refine iff_of_false ?_ (by simp)
      intro h
      obtain ⟨t, rfl, ht⟩ := Option.bind_eq_some_iff.mp hip
      cases hr : built with
      | error e =>
        rw [hr, outcome, ht] at hv
        cases hv
      | ok response =>
        have hres := hok response hr
        rw [outcome, ht] at hres
        have hone := (Prod.mk.inj (Except.ok.inj hres)).2
        exact hasks (h response hr ⟨_, hone ▸ List.mem_singleton_self _, rfl, rfl⟩)

section Responders

variable {γ : Type} (rt : Runtime) (srv : PyMeshDNSServer)
  (nodesReply : γ → HttpReply (String × String)) (tldsReply : γ → HttpReply String)

/-- The name of the question, as the server looks it up. -/
def questionName (q : SingleQuery) : String := (DNSQueryParser.parseDomainName q.encode 12).1

/-- What the name of the question is resolved to by a call that runs alone. -/
def resolvedIp (q : SingleQuery) (s : DnsState γ) : Option String :=
  match ((PyMeshDNSServer.resolveCustomTld rt srv nodesReply tldsReply
      (questionName q)).run s).1 with
  | .ok targetIp => truthy targetIp
  | .error _ => none

/-- The end of a call that has resolved its name. -/
theorem answerDoh_answered {data response : List UInt8} {targetIp : Option String} :
    PyMeshDNSServer.answerDoh data domain targetIp = .ok (.answered response) ↔
      ∃ t, truthy targetIp = some t ∧ response ≠ [] ∧
        DNSQueryParser.buildAResponse data domain t = .ok response := by
  unfold PyMeshDNSServer.answerDoh
  cases truthy targetIp with
  | none => simp [pure, Except.pure]
  | some t =>
    cases hb : DNSQueryParser.buildAResponse data domain t with
    | error e => simp [hb, bind, Except.bind]
    | ok built =>
      by_cases hne : built = []
      · simp [hb, bind, Except.bind, pure, Except.pure, hne]
      · simp [hb, bind, Except.bind, pure, Except.pure, hne]
        rintro rfl
        exact hne

/-- The responses that a call builds itself, when it runs alone. -/
theorem processQueryData_answered {s : DnsState γ} {response : List UInt8}
    (hname : questionName q ≠ "") :
    ((PyMeshDNSServer.processQueryData rt srv nodesReply tldsReply q.encode).run s).1 =
        .ok (.answered response) ↔
      ∃ t, resolvedIp rt srv nodesReply tldsReply q s = some t ∧ response ≠ [] ∧
        DNSQueryParser.buildAResponse q.encode (questionName q) t = .ok response := by
  have hlen : ¬ q.encode.length < 12 := Nat.not_lt.mpr q.le_length
  have hsession : PyMeshDNSServer.processQueryData rt srv nodesReply tldsReply q.encode =
      PyMeshDNSServer.resolveCustomTld rt srv nodesReply tldsReply (questionName q) >>= fun
        targetIp =>
          Prog.ofExcept (PyMeshDNSServer.answerDoh q.encode (questionName q) targetIp) := by
    unfold PyMeshDNSServer.processQueryData
    rw [if_neg hlen]
    exact if_neg hname
  rw [hsession, Prog.run_bind, resolvedIp]
  rcases (PyMeshDNSServer.resolveCustomTld rt srv nodesReply tldsReply (questionName q)).run s with
    ⟨e | targetIp, s'⟩
  · simp
  · rw [← answerDoh_answered]
    dsimp only
    cases PyMeshDNSServer.answerDoh q.encode (questionName q) targetIp <;> rfl

theorem answers_nil : Rfc1035.answers [] = [] := by decide

theorem ipStr_eq_or (records : Dict String String) (texts : List String) :
    MagicDNSProtocol.ipStr records texts = (truthy (records (domainName texts))).or
      (truthy (records (shortName texts))) := by
  rw [MagicDNSProtocol.ipStr]
  cases truthy (records (domainName texts)) <;> rfl

/-- Each responder answers with an address only to a question for one, if and only if the question
is for one, or the name is bound to no IPv4 address. -/
theorem question_type_iff (records : Dict String String) (domain targetIp : String)
    (q : SingleQuery) (s : DnsState γ) :
    ((∀ response, DNSQueryParser.buildAResponse q.encode domain targetIp = .ok response →
        HasAddress response → AsksAddress q) ↔
      AsksAddress q ∨ IPv4Address.parse targetIp = none) ∧
    ((∀ response, buildDnsResponse records q.encode = .ok response →
        HasAddress response → AsksAddress q) ↔
      AsksAddress q ∨ ((truthy (records (domainName (texts q)))).or
        (truthy (records (shortName (texts q))))).bind IPv4Address.parse = none) ∧
    ((∀ response,
        ((PyMeshDNSServer.processQueryData rt srv nodesReply tldsReply q.encode).run s).1 =
          .ok (.answered response) → HasAddress response → AsksAddress q) ↔
      AsksAddress q ∨ questionName q = "" ∨
        (resolvedIp rt srv nodesReply tldsReply q s).bind IPv4Address.parse = none) := by
  refine ⟨?_, ?_, ?_⟩
  · have h := address_only_if_iff (q := q) (verdict_buildAResponse q domain targetIp)
    rwa [Option.bind_some] at h
  · rw [← ipStr_eq_or]
    exact address_only_if_iff (verdict_eq records q)
  · by_cases hname : questionName q = ""
    · -- A name that decodes to nothing gets the empty response.
      refine iff_of_true ?_ (Or.inr (Or.inl hname))
      rintro response hr ⟨r, hmem, -⟩
      have hsession : PyMeshDNSServer.processQueryData rt srv nodesReply tldsReply q.encode =
          return .answered [] := by
        unfold PyMeshDNSServer.processQueryData
        rw [if_neg (Nat.not_lt.mpr q.le_length)]
        exact if_pos hname
      rw [hsession] at hr
      obtain rfl := Outcome.answered.inj (Except.ok.inj hr)
      rw [answers_nil] at hmem
      cases hmem
    · simp only [processQueryData_answered rt srv nodesReply tldsReply hname, hname, false_or]
      cases hfound : resolvedIp rt srv nodesReply tldsReply q s with
      | none => simp
      | some t =>
        have hiff := address_only_if_iff (q := q) (verdict_buildAResponse q (questionName q) t)
        rw [← hiff]
        constructor
        · intro h response hr haddress
          refine h response ⟨t, rfl, ?_, hr⟩ haddress
          rintro rfl
          obtain ⟨r, hmem, -⟩ := haddress
          rw [answers_nil] at hmem
          cases hmem
        · rintro h response ⟨t', ht', -, hr⟩ haddress
          obtain rfl := Option.some.inj ht'
          exact h response hr haddress

end Responders

/-- A question for the IPv6 address of a node of the mesh. -/
theorem question_type_fails :
    let q : SingleQuery := { SingleQuery.address [webLabel, meshLabel] with
      question := ⟨[webLabel, meshLabel], 28, 1, by decide, by decide⟩ }
    ¬ AsksAddress q ∧
      verdict (DNSQueryParser.buildAResponse q.encode "web.mesh" "100.64.0.5") =
        .ok (0, [⟨1, 1, [100, 64, 0, 5]⟩]) ∧
      verdict (buildDnsResponse webRecords q.encode) = .ok (0, [⟨1, 1, [100, 64, 0, 5]⟩]) :=
  ⟨by decide, by decide +kernel, by decide +kernel⟩

end PyMesh
