/-!
# What the command says about itself
-/

namespace Reannotate.Command

def usage : String :=
  "usage: flow2ts [-h] [-s SOURCE] [-o OUTPUT] [-v] [--max-issues MAX_ISSUES]\n" ++
  "               annotations\n"

def help : String :=
  usage ++
  "\n" ++
  "Translate Flow type annotations (as Babel AST JSON) into TypeScript type\n" ++
  "annotations.\n" ++
  "\n" ++
  "positional arguments:\n" ++
  "  annotations           JSON file holding a Babel AST node, or a list of them.\n" ++
  "\n" ++
  "options:\n" ++
  "  -h, --help            show this help message and exit\n" ++
  "  -s SOURCE, --source SOURCE\n" ++
  "                        The source file those nodes came from, for better\n" ++
  "                        error messages.\n" ++
  "  -o OUTPUT, --output OUTPUT\n" ++
  "                        Write the result here instead of standard output.\n" ++
  "  -v, --verbose         Say more about what's going on.\n" ++
  "  --max-issues MAX_ISSUES\n" ++
  "                        Give up after this many untranslatable entries.\n"

def introduction : String :=
  "This translates Flow type annotations into TypeScript type annotations.\n" ++
  "\n" ++
  usage ++
  "\n" ++
  "\n" ++
  "For example:\n" ++
  "\n" ++
  "    flow2ts annotations.json\n" ++
  "\n" ++
  "reads a file of Babel AST nodes (one, or a list of them) and writes the\n" ++
  "corresponding TypeScript AST nodes, as JSON, to standard output.\n" ++
  "Anything that cannot be translated comes out as null, with an explanation\n" ++
  "on standard error.\n" ++
  "\n" ++
  "    flow2ts -h\n" ++
  "\n" ++
  "will explain all the arguments.\n"

end Reannotate.Command
