import HttpdProxy.Proofs.Fidelity

/-!
# What a tunnel forwards depends on how its request came in

`parsing_host_on_read_ready` stops at the CR LF of the request line, and for a
CONNECT `buffer_reset` then drops whatever else that read brought. The header
lines a client sends after the request line, and the blank line, are dropped
if they come with it and forwarded to the host if they do not; and what the
client sends after the blank line is dropped if it comes early.
-/

namespace HttpdProxy

open Conn

/-- A CONNECT head: a request line, header lines, a blank line. -/
def ConnectHead (head : Bytes) : Prop :=
  ∃ (line : Bytes) (headers : List Bytes),
    requestHead requestParserInit line = some (line, []) ∧
      (∀ h ∈ headers, h ≠ [] ∧ ¬ ascii "\r\n" <:+: h) ∧
      head = line ++ (headers.map (· ++ ascii "\r\n")).flatten ++ ascii "\r\n"

/-- The client's stream is a CONNECT head and what is meant for the tunnel. -/
structure TunnelStream (bs head tunnel : Bytes) : Prop where
  request : ConnectHead head
  split : bs = head ++ tunnel

/-- Once the tunnel is established, what was forwarded and what is still to be
forwarded are the tunnel's bytes exactly when the read that completed the
request line ended with the head. -/
theorem tunnel_forwards_iff {cfg : Config} {es : List Event} {w : World} {id : Nat} {c : Conn}
    {head tunnel : Bytes} (h : Lib.RunsWhen step Undisturbed (initWorld cfg) es w)
    (hc : w.heap id = .live c ∨ w.heap id = .freed c)
    (hup : .connected ∈ statesEntered c.trace)
    (hm : c.connectionRequest.method = ascii "CONNECT")
    (hin : TunnelStream (clientIn c.trace) head tunnel) :
    targetOut c.trace ++ c.clientBuffer.unread = tunnel ↔
      leadingReads requestParserInit (clientReads c.trace) = head := by
  obtain ⟨hf, ht⟩ := runs_faithful h hc
  obtain ⟨hout, hlead⟩ := hf.accounted hup
  have htunnel : targetOut c.trace ++ c.clientBuffer.unread = tunnelIn c.trace := by
    rw [hout, destined, if_pos (ht.mpr hm)]
  rw [hin.split] at hlead
  rw [htunnel]
  constructor
  · rintro rfl
    exact List.append_cancel_right hlead
  · intro he
    rw [he] at hlead
    exact List.append_cancel_left hlead

/-- A request for a tunnel that comes in one read, or in the two parts
`first` and `second`, and the two bytes that follow it. -/
def tunnelEvents (first second : Bytes) : List Event :=
  [.readable 3 { Env.silent with accept := some 5 },
    .readable 5 { Env.silent with recv := some first, socket := fun _ => some 6 },
    .writable 6 Env.silent,
    .readable 5 { Env.silent with recv := some second },
    .writable 6 { Env.silent with send := some 100 }]

/-- The head of that request. -/
def tunnelHead : Bytes := ascii "CONNECT 127.0.0.1:443 HTTP/1.0\r\n\r\n"

theorem tunnelHead_connectHead : ConnectHead tunnelHead :=
  ⟨ascii "CONNECT 127.0.0.1:443 HTTP/1.0\r\n", [], by decide +kernel, by simp, rfl⟩

theorem tunnel_forwards_iff_whole :
    ∃ (w : World) (c : Conn), w.heap 0 = .live c ∧ targetOut c.trace = ascii "hi" ∧
      (targetOut c.trace ++ c.clientBuffer.unread = ascii "hi" ↔
        leadingReads requestParserInit (clientReads c.trace) = tunnelHead) := by
  obtain ⟨w, c, h, hc, hp⟩ := @first_run loopback (tunnelEvents tunnelHead (ascii "hi"))
    (fun c => targetOut c.trace == ascii "hi" &&
      clientIn c.trace == tunnelHead ++ ascii "hi" &&
      c.connectionRequest.method == ascii "CONNECT" &&
      statesEntered c.trace == [.connected, .tryConnectionIp, .parsingRequestLine])
    (by decide +kernel)
  simp only [Bool.and_eq_true, beq_iff_eq] at hp
  obtain ⟨⟨⟨hout, hin⟩, hm⟩, hs⟩ := hp
  exact ⟨w, c, hc, hout, tunnel_forwards_iff h (.inl hc) (by rw [hs]; simp) hm
    ⟨tunnelHead_connectHead, hin⟩⟩

/-- The same bytes of the client, forwarded with and without the blank line of
his request. -/
theorem tunnel_depends_on_segmentation :
    ∃ (es es' : List Event) (w w' : World) (c c' : Conn),
      Lib.RunsWhen step Undisturbed (initWorld loopback) es w ∧ w.heap 0 = .live c ∧
      Lib.RunsWhen step Undisturbed (initWorld loopback) es' w' ∧ w'.heap 0 = .live c' ∧
      TunnelStream (clientIn c.trace) tunnelHead (ascii "hi") ∧
      clientIn c'.trace = clientIn c.trace ∧
      targetOut c.trace = ascii "hi" ∧ targetOut c'.trace = ascii "\r\nhi" := by
  obtain ⟨w, c, h, hc, hp⟩ := @first_run loopback (tunnelEvents tunnelHead (ascii "hi"))
    (fun c => targetOut c.trace == ascii "hi" &&
      clientIn c.trace == tunnelHead ++ ascii "hi") (by decide +kernel)
  obtain ⟨w', c', h', hc', hp'⟩ := @first_run loopback
    (tunnelEvents (ascii "CONNECT 127.0.0.1:443 HTTP/1.0\r\n") (ascii "\r\nhi"))
    (fun c => targetOut c.trace == ascii "\r\nhi" &&
      clientIn c.trace == tunnelHead ++ ascii "hi") (by decide +kernel)
  simp only [Bool.and_eq_true, beq_iff_eq] at hp hp'
  exact ⟨_, _, w, w', c, c', h, hc, h', hc', ⟨tunnelHead_connectHead, hp.2⟩,
    hp'.2.trans hp.2.symm, hp.1, hp'.1⟩

end HttpdProxy
