/-!
# Modules of the standard library

The modules that come with the interpreter, as far as they are known without asking one.
-/

namespace ScriptDeps

/-- The modules that come with an interpreter. -/
def bundledModules : List String :=
  ["abc", "aifc", "antigravity", "argparse", "array", "ast", "asynchat", "asyncio",
    "asyncore", "atexit", "audioop", "base64", "bdb", "binascii", "binhex", "bisect",
    "builtins", "bz2", "calendar", "cgi", "cgitb", "chunk", "cmath", "cmd", "code", "codecs",
    "codeop", "collections", "colorsys", "compileall", "concurrent", "configparser",
    "contextlib", "contextvars", "copy", "copyreg", "cProfile", "crypt", "csv", "ctypes",
    "curses", "dataclasses", "datetime", "dbm", "decimal", "difflib", "dis", "distutils",
    "doctest", "dummy_threading", "email", "encodings", "ensurepip", "enum", "errno",
    "faulthandler", "fcntl", "filecmp", "fileinput", "fnmatch", "formatter", "fractions",
    "ftplib", "functools", "gc", "genericpath", "getopt", "getpass", "gettext", "glob",
    "graphlib", "grp", "gzip", "hashlib", "heapq", "hmac", "html", "http", "idlelib",
    "imaplib", "imghdr", "imp", "importlib", "inspect", "io", "ipaddress", "itertools",
    "json", "keyword", "lib2to3", "linecache", "locale", "logging", "lzma", "macpath",
    "mailbox", "mailcap", "marshal", "math", "mimetypes", "mmap", "modulefinder", "msilib",
    "msvcrt", "multiprocessing", "netrc", "nis", "nntplib", "nt", "ntpath", "nturl2path",
    "numbers", "opcode", "operator", "optparse", "os", "ossaudiodev", "parser", "pathlib",
    "pdb", "pickle", "pickletools", "pipes", "pkgutil", "platform", "plistlib", "poplib",
    "posix", "posixpath", "pprint", "profile", "pstats", "pty", "pwd", "py_compile", "pyclbr",
    "pydoc", "pydoc_data", "pyexpat", "queue", "quopri", "random", "re", "readline",
    "reprlib", "resource", "rlcompleter", "runpy", "sched", "secrets", "select", "selectors",
    "shelve", "shlex", "shutil", "signal", "site", "smtpd", "smtplib", "sndhdr", "socket",
    "socketserver", "spwd", "sqlite3", "sre_compile", "sre_constants", "sre_parse", "ssl",
    "stat", "statistics", "string", "stringprep", "struct", "subprocess", "sunau", "symbol",
    "symtable", "sys", "sysconfig", "syslog", "tabnanny", "tarfile", "telnetlib", "tempfile",
    "termios", "test", "textwrap", "this", "threading", "time", "timeit", "tkinter", "token",
    "tokenize", "tomllib", "trace", "traceback", "tracemalloc", "tty", "turtle", "turtledemo",
    "types", "typing", "unicodedata", "unittest", "urllib", "uu", "uuid", "venv", "warnings",
    "wave", "weakref", "webbrowser", "winreg", "winsound", "wsgiref", "xdrlib", "xml",
    "xmlrpc", "xxsubtype", "zipapp", "zipfile", "zipimport", "zlib", "zoneinfo", "__future__",
    "__main__", "_abc", "_ast", "_asyncio", "_bisect", "_blake2", "_bz2", "_codecs",
    "_collections", "_collections_abc", "_compression", "_contextvars", "_csv", "_ctypes",
    "_datetime", "_decimal", "_dummy_thread", "_frozen_importlib",
    "_frozen_importlib_external", "_functools", "_hashlib", "_heapq", "_imp", "_io", "_json",
    "_locale", "_lzma", "_markupbase", "_md5", "_operator", "_pickle", "_posixsubprocess",
    "_pydecimal", "_pyio", "_queue", "_random", "_sha1", "_sha256", "_sha3", "_sha512",
    "_signal", "_sitebuiltins", "_socket", "_sqlite3", "_sre", "_ssl", "_stat", "_string",
    "_strptime", "_struct", "_thread", "_threading_local", "_tracemalloc", "_typing", "_uuid",
    "_warnings", "_weakref", "_weakrefset", "_winapi", "_zoneinfo", "_aix_support",
    "_bootsubprocess", "_codecs_cn", "_codecs_hk", "_codecs_iso2022", "_codecs_jp",
    "_codecs_kr", "_codecs_tw", "_compat_pickle", "_crypt", "_curses", "_curses_panel",
    "_dbm", "_elementtree", "_gdbm", "_lsprof", "_msi", "_multibytecodec", "_multiprocessing",
    "_opcode", "_osx_support", "_overlapped", "_posixshmem", "_py_abc", "_scproxy",
    "_statistics", "_symtable", "_tkinter", "_tokenize", "_android_support", "_colorize",
    "_interpchannels", "_interpqueues", "_interpreters", "_ios_support", "_opcode_metadata",
    "_pydatetime", "_pylong", "_pyrepl", "_suggestions", "_sysconfig", "_wmi"]

end ScriptDeps
