import AgentWorkbench.Frame.Basic
import AgentWorkbench.Text.Lines

/-!
The routine by which an instrumented program describes its own pipeline, and the lines that print
what it finds as a graph frame. The routine is a plain function at the top level that reads the
file it stands in.
-/
namespace AgentWorkbench.Instrument

def routineLines : List String := [
  "def extract_graph():",
  "    \"\"\"Rebuild the agent pipeline graph from this program's own source.\"\"\"",
  "    try:",
  "        with open(__file__, \"r\", encoding=\"utf-8\") as handle:",
  "            source = handle.read()",
  "        tree = ast.parse(source)",
  "",
  "        def _const(node):",
  "            if isinstance(node, ast.Constant):",
  "                return node.value if isinstance(node.value, str) else repr(node.value)",
  "            return None",
  "",
  "        def _ident(node):",
  "            value = _const(node)",
  "            if value is not None:",
  "                return value",
  "            if isinstance(node, ast.Name):",
  "                return node.id",
  "            return ast.unparse(node)",
  "",
  "        def _segment(node):",
  "            # Interpolations render as written; positions inside f-strings are",
  "            # unreliable before 3.12, so the segment must parse back to \x60node\x60.",
  "            text = ast.get_source_segment(source, node)",
  "            try:",
  "                if text is not None and ast.dump(ast.parse(text.strip()," ++
    " mode=\"eval\").body) == ast.dump(node):",
  "                    return text.strip()",
  "            except SyntaxError:",
  "                pass",
  "            return ast.unparse(node)",
  "",
  "        def _render(node):",
  "            if isinstance(node, ast.Constant) and isinstance(node.value, str):",
  "                return node.value",
  "            if isinstance(node, ast.JoinedStr):",
  "                parts = []",
  "                for piece in node.values:",
  "                    if isinstance(piece, ast.Constant):",
  "                        parts.append(str(piece.value))",
  "                    elif isinstance(piece, ast.FormattedValue):",
  "                        parts.append(\"\x7b\" + _segment(piece.value) + \"\x7d\")",
  "                return \"\".join(parts)",
  "            return None",
  "",
  "        def _calls(root):",
  "            found, stack = [], [root]",
  "            while stack:",
  "                node = stack.pop()",
  "                if isinstance(node, ast.Call):",
  "                    found.append(node)",
  "                stack.extend(reversed(list(ast.iter_child_nodes(node))))",
  "            return found",
  "",
  "        def _method(call):",
  "            return call.func.attr if isinstance(call.func, ast.Attribute) else None",
  "",
  "        def _callee(call):",
  "            if isinstance(call.func, ast.Name):",
  "                return call.func.id",
  "            return _method(call)",
  "",
  "        bindings = \x7b\x7d",
  "        for stmt in tree.body:",
  "            if isinstance(stmt, ast.Assign) and isinstance(stmt.value, ast.Call):",
  "                for kw in stmt.value.keywords:",
  "                    value = _const(kw.value)",
  "                    if kw.arg in (\"model\", \"model_name\", \"repo_id\") and value is" ++
    " not None:",
  "                        for target in stmt.targets:",
  "                            if isinstance(target, ast.Name):",
  "                                bindings[target.id] = value",
  "",
  "        handlers = \x7bs.name: s for s in tree.body if isinstance(s, ast.FunctionDef)\x7d",
  "",
  "        def _prompt(fdef):",
  "            for call in _calls(fdef):",
  "                if _method(call) != \"invoke\":",
  "                    continue",
  "                for arg in call.args:",
  "                    for msg in (arg.elts if isinstance(arg, ast.List) else [arg]):",
  "                        if not (isinstance(msg, ast.Call) and _callee(msg) ==" ++
    " \"HumanMessage\"):",
  "                            continue",
  "                        content = next((kw.value for kw in msg.keywords if" ++
    " kw.arg == \"content\"), None)",
  "                        if content is None and msg.args:",
  "                            content = msg.args[0]",
  "                        text = _render(content) if content is not None else None",
  "                        if text is not None:",
  "                            return text",
  "            return \"\"",
  "",
  "        def _model(fdef):",
  "            for call in _calls(fdef):",
  "                if _method(call) == \"invoke\" and isinstance(call.func.value, ast.Name):",
  "                    return bindings.get(call.func.value.id, \"\")",
  "            return \"\"",
  "",
  "        nodes, edges = [], []",
  "        builder = next((s for s in tree.body if isinstance(s, ast.FunctionDef)" ++
    " and s.name == \"create_agent\"), None)",
  "        for call in _calls(builder) if builder is not None else []:",
  "            method = _method(call)",
  "            if method not in (\"add_node\", \"add_edge\"):",
  "                continue",
  "            if len(call.args) < 2:",
  "                raise ValueError(\"%s() at line %d needs 2 positional arguments," ++
    " got %d\" % (method, call.lineno, len(call.args)))",
  "            if method == \"add_node\":",
  "                node_id = _ident(call.args[0])",
  "                target = call.args[1]",
  "                fdef = handlers.get(target.id if isinstance(target, ast.Name)" ++
    " else ast.unparse(target))",
  "                k = len(nodes)",
  "                nodes.append(\x7b",
  "                    \"id\": node_id,",
  "                    \"label\": node_id,",
  "                    \"docstring\": (ast.get_docstring(fdef) or \"\") if fdef else \"\",",
  "                    \"functionArguments\": [a.arg for a in fdef.args.args] if fdef else [],",
  "                    \"prompt\": _prompt(fdef) if fdef else \"\",",
  "                    \"model\": _model(fdef) if fdef else \"\",",
  "                    \"position\": \x7b\"x\": 250 * k, \"y\": 100 * k\x7d,",
  "                \x7d)",
  "            else:",
  "                target = _ident(call.args[1])",
  "                edges.append(\x7b",
  "                    \"id\": \"edge-%d\" % len(edges),",
  "                    \"source\": _ident(call.args[0]),",
  "                    \"target\": \"output\" if target in (\"END\", \"__end__\") else target,",
  "                    \"metadata\": \x7b\x7d,",
  "                \x7d)",
  "        if any(e[\"target\"] == \"output\" for e in edges):",
  "            k = len(nodes)",
  "            nodes.append(\x7b",
  "                \"id\": \"output\",",
  "                \"label\": \"output\",",
  "                \"docstring\": \"Aggregated output of every edge that ends the pipeline.\",",
  "                \"functionArguments\": [],",
  "                \"prompt\": \"\",",
  "                \"model\": \"\",",
  "                \"position\": \x7b\"x\": 250 * k, \"y\": 100 * k\x7d,",
  "            \x7d)",
  "        return \x7b\"nodes\": nodes, \"edges\": edges\x7d",
  "    except Exception as exc:",
  "        return \x7b\"nodes\": [], \"edges\": [], \"error\": str(exc)\x7d"]

/-- The text of the routine; a break ends its last line too. -/
def routine : String :=
  String.join (routineLines.map (· ++ "\n"))

/-- What stands at the head of the routine. A source that holds it has the routine. -/
def routineSignature : String := "def extract_graph("

def requiredImports : List String := ["import ast", "import json"]

/-- The first line of the hook. A source that holds it has the hook. -/
def hookMarker : String := "# ---GRAPH_STRUCTURE_HOOK---"

def hookStatements : List String := [
  hookMarker,
  "graph_json = extract_graph()",
  "print(\"\\n" ++ FrameKind.graph.beginMarker ++ "\")",
  "print(json.dumps(graph_json, indent=2))",
  "print(\"" ++ FrameKind.graph.endMarker ++ "\", flush=True)"]

def hookLines (indent : String) : List String :=
  hookStatements.map (indent ++ ·)

end AgentWorkbench.Instrument
