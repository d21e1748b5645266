import RpcBroker.Model.ServerBlock
import RpcBroker.Proofs.Generators
/-!
# RpcBroker.Proofs.BlockText

**The text of the generated block.** The tree `serverBlock`, written out, is what
the server's generator prints for the line of the prototype
(`serverStub_blockText`).
-/

namespace RpcBroker

open CLib Perl CBlock

/-- A list of variables is written as their names. -/
theorem exprsText_vars {α : Type} (sep : Text) (name : α → Text) (xs : List α) :
    exprsText sep (xs.map fun x => .var (name x)) = join sep (xs.map name) := by
  match xs with
  | [] => rfl
  | [x] => exact (join_singleton sep (name x)).symm
  | x :: y :: xs =>
      rw [List.map_cons, List.map_cons, List.map_cons, List.map_cons, join_cons_cons,
        ← List.map_cons, ← exprsText_vars sep name (y :: xs)]
      rfl

/-- A parameter is declared as the script declares it. -/
theorem stmtText_readDecl (param : CType × Identifier) (i : Nat) :
    stmtText (readDecl param i).stmt = readText param i := by
  obtain ⟨t, name⟩ := param
  have hend : text "];\n" = text "]" ++ text ";\n" := by decide
  cases t with
  | int =>
      have hread : text " = *(int*) params[" =
        text " = " ++ (text "*(int*) " ++ (text "params" ++ text "[")) := by decide
      simp only [readDecl, Decl.stmt, stmtText, readText, readExpr, exprText, hread, hend,
        List.append_assoc]
      rfl
  | charPtr =>
      have hread : text " = (char*) params[" =
        text " = " ++ (text "(char*) " ++ (text "params" ++ text "[")) := by decide
      simp only [readDecl, Decl.stmt, stmtText, readText, readExpr, exprText, hread, hend,
        List.append_assoc]
      rfl

theorem readDecls_text (params : List (CType × Identifier)) (i : Nat) :
    ((readDecls params i).map Decl.stmt).flatMap stmtText =
      (params.zipIdx i).flatMap fun param => readText param.1 param.2 := by
  induction params generalizing i with
  | nil => rfl
  | cons param params ih =>
      rw [readDecls, List.map_cons, List.flatMap_cons, stmtText_readDecl, ih, List.zipIdx_cons,
        List.flatMap_cons]

theorem exprText_cond (proto : Prototype) :
    exprText (serverBlock proto).cond =
      text "STR_Equals(operation, \"" ++ (proto.name.chars ++ text "\")") := by
  have hopen : text "STR_Equals(operation, \"" =
      text "STR_Equals" ++ (text "(" ++ (text "operation" ++ (text ", " ++ text "\""))) := by decide
  have hclose : text "\")" = text "\"" ++ text ")" := by decide
  simp only [serverBlock, exprText, exprsText, hopen, hclose, List.append_assoc]

theorem stmtText_packet (proto : Prototype) :
    stmtText (packStmt proto) =
      text "\t\tPacket pkt = pack_client_response_data(&response, operation, message_id, \"" ++
        (responseConv proto.ret.text.chars ++ (text "\", " ++ (proto.name.chars ++ (text "(" ++
          (join (text ",") (proto.params.map fun param => param.2.chars) ++
            (text ")" ++ text ");\n")))))) := by
  have hopen :
      text "\t\tPacket pkt = pack_client_response_data(&response, operation, message_id, \"" =
      text "\t\t" ++ (text "Packet" ++ (text " " ++ (text "pkt" ++ (text " = " ++
        (text "pack_client_response_data" ++ (text "(" ++ (text "&" ++ (text "response" ++
          (text ", " ++ (text "operation" ++ (text ", " ++ (text "message_id" ++
            (text ", " ++ text "\""))))))))))))) := by decide
  have hmiddle : text "\", " = text "\"" ++ text ", " := by decide
  have hclose : text ");\n" = text ")" ++ text ";\n" := by decide
  simp only [packStmt, stmtText, cTypeText, exprText, exprsText, Prototype.callExpr,
    exprsText_vars, hopen,
    hmiddle, hclose, List.append_assoc]

/-- The statements that name no parameter. -/
theorem respondStmts_text (proto : Prototype) :
    (respondStmts proto).flatMap stmtText =
      text "\n" ++
        (text "\t\tPacket pkt = pack_client_response_data(&response, operation, message_id, \"" ++
        (responseConv proto.ret.text.chars ++ (text "\", " ++ (proto.name.chars ++ (text "(" ++
          (join (text ",") (proto.params.map fun param => param.2.chars) ++
            (text ")" ++ (text ");\n" ++
              (text "\t\tif (verbose)\n\t\t\tunpack_data(&pkt, verbose);\n\n" ++
                (text "\t\tsend_req(&pkt, broker_address, broker_port, verbose);\n" ++
                  text "\t\tmsgpack_sbuffer_destroy(&response);\n")))))))))) := by
  have hprint : stmtText (.ifExpr (.var (text "verbose"))
      (.call (text "unpack_data") (text ", ") [.addr (text "pkt"), .var (text "verbose")])) ++
      stmtText .blank = text "\t\tif (verbose)\n\t\t\tunpack_data(&pkt, verbose);\n\n" := by
    decide
  have hsend : stmtText (.expr (.call (text "send_req") (text ", ")
      [.addr (text "pkt"), .var (text "broker_address"), .var (text "broker_port"),
        .var (text "verbose")])) =
      text "\t\tsend_req(&pkt, broker_address, broker_port, verbose);\n" := by decide
  have hdestroy : stmtText (.expr (.call (text "msgpack_sbuffer_destroy") (text ", ")
      [.addr (text "response")])) = text "\t\tmsgpack_sbuffer_destroy(&response);\n" := by decide
  rw [respondStmts, List.flatMap_cons, List.flatMap_cons, stmtText_packet, sendStmts,
    List.flatMap_cons, List.flatMap_cons, List.flatMap_cons, List.flatMap_cons, ← hprint, hsend,
    hdestroy]
  simp only [List.flatMap_nil, List.append_assoc, List.append_nil]
  rfl

/-- **The script prints this block.** -/
theorem serverStub_blockText (proto : Prototype) (eol : Bool) :
    (serverStub (proto.line ++ lineEnd eol)).map ServerStub.output =
      some (blockText (serverBlock proto) ++ text "\n") := by
  have hif : text "\tif (STR_Equals(operation, \"" =
      text "\tif (" ++ text "STR_Equals(operation, \"" := by decide
  have hbody : text "\")) \x7b\n\t\tmsgpack_sbuffer response;\n" =
      text "\")" ++ (text ") \x7b\n" ++
      stmtText (.decl (.named (text "msgpack_sbuffer")) (text "response") none)) := by decide
  have hpacket :
      text "\n\t\tPacket pkt = pack_client_response_data(&response, operation, message_id, \"" =
      text "\n" ++
        text "\t\tPacket pkt = pack_client_response_data(&response, operation, message_id, \"" := by
    decide
  have hend : text "\t\tmsgpack_sbuffer_destroy(&response);\n\t\x7d\n\n" =
      text "\t\tmsgpack_sbuffer_destroy(&response);\n" ++ (text "\t\x7d\n" ++ text "\n") := by
    decide
  have hbodyText : (serverBlock proto).body.flatMap stmtText =
      stmtText (.decl (.named (text "msgpack_sbuffer")) (text "response") none) ++
        ((proto.params.zipIdx.flatMap fun param => readText param.1 param.2) ++
          (respondStmts proto).flatMap stmtText) := by
    rw [serverBlock, List.flatMap_cons, List.flatMap_append, readDecls_text]
  rw [serverStub_line, Option.map_some, blockText, exprText_cond, hbodyText, respondStmts_text]
  simp only [ServerStub.output, hif, hbody, hpacket, hend, List.append_assoc]

end RpcBroker
